import ShaderComposer.Chain.Printer
import ShaderComposer.Chain.Reader
import ShaderComposer.Proofs.DocumentReading
import ShaderComposer.Proofs.FloatBits

/-!
# Effects are read as they are written

An effect is written as an object whose first member names its kind; the others are its
settings.  The reader collects the settings as documents until the kind is known and
looks at them afterwards, so an effect is read as written when every setting is read as
a document from which the setting can be taken.  A float that is no finite number is
written as null, and an amount in that form is refused.  That a finite float is read as
it was written is left to the float.
-/

namespace ShaderComposer

/-! ## Floats -/

theorem Number.text_single_of_not_finite {x : Float32} (hx : x.isFinite = false) :
    (Number.single x).text = Document.nullLiteral := by
  rw [text]
  cases hdatum : Binary.ofFloat32 x with
  | finite exact =>
      exact absurd hdatum (Binary.ofFloat32_ne_finite hx exact)
  | notANumber =>
      rfl
  | infinite negative =>
      rfl

/-- The text of the float is read as a number of the same value. -/
def Number.ReadsBack (x : Float32) : Prop :=
  ∃ number, Scan.numberLiteral (Number.single x).text = .ok (number, []) ∧
    number.toFloat32 = x

theorem Number.readsBack_iff {x : Float32} :
    ReadsBack x ↔
      ((Scan.numberLiteral (Number.single x).text).toOption.map fun read =>
          (read.1.toFloat32, read.2)) =
        some (x, []) := by
  unfold ReadsBack
  cases Scan.numberLiteral (Number.single x).text with
  | error error =>
      simp [Except.toOption]
  | ok read =>
      obtain ⟨number, rest⟩ := read
      simp [Except.toOption, and_comm]

instance (x : Float32) : Decidable (Number.ReadsBack x) :=
  decidable_of_iff _ Number.readsBack_iff.symm

namespace ChainEffect

open Scan

/-- The numbers among the settings of an effect. -/
def numbers : ChainEffect → List Float32
  | blur _ _ threshold => threshold.toList
  | adjust _ amount => [amount]

/-- The settings of an effect are within bounds, and its numbers are read as written. -/
def Saveable : ChainEffect → Prop
  | blur radius _ threshold =>
    radius < UInt32.size ∧ ∀ x ∈ threshold, Number.ReadsBack x
  | adjust _ amount => Number.ReadsBack amount

theorem effectMember_of_reads
    {room : Nat} {kind : Option Kind} {known : List (String × Document)} {key : String}
    (hkey : key ≠ "type") {written found : Document}
    (hreads : Reads (value room) written found) ⦃rest : List Char⦄ (hrest : Delimited rest) :
    Chain.Reader.effectMember room (kind, known) key (':' :: (written.compact ++ rest)) =
      .ok ((kind, known ++ [(key, found)]), rest) := by
  have hstep (text : List Char) :
      Chain.Reader.effectMember room (kind, known) key (':' :: text) =
        (value room >>= fun found => pure (kind, known ++ [(key, found)])) text := by
    unfold Chain.Reader.effectMember
    rw [if_neg hkey]
    rfl
  rw [hstep, bind_of_ok (hreads hrest)]
  rfl

theorem effectMember_type
    {room : Nat} {kind : Kind} {name : String} (hkind : kinds.lookup name = some kind)
    ⦃rest : List Char⦄ (hrest : Delimited rest) :
    Chain.Reader.effectMember room (none, []) "type"
        (':' :: ((Document.string name).compact ++ rest)) =
      .ok ((some kind, []), rest) := by
  have hstep (text : List Char) :
      Chain.Reader.effectMember room (none, []) "type" (':' :: text) =
        (Scan.text "variant identifier" >>= fun name =>
          variant kinds name >>= fun kind => pure (some kind, [])) text := by
    unfold Chain.Reader.effectMember Chain.Reader.kind
    rw [if_pos rfl, bind_assoc]
    rfl
  rw [hstep, bind_of_ok (reads_text _ name hrest)]
  simp only [variant, hkind]
  rfl

theorem effect_object (room : Nat) (entries : List (String × Document)) (rest : List Char) :
    Chain.Reader.effect room ((Document.object entries).compact ++ rest) =
      Chain.Reader.effectObject room ((Document.object entries).compact ++ rest) := by
  rw [compact_object]
  rfl

theorem reads_effect_object
    {room : Nat} {entries members : List (String × Document)} {kind : Kind}
    (hgathers :
      Gathers (Chain.Reader.effectMember room) (none, []) entries (some kind, members))
    {effect : ChainEffect} (heffect : ofMembers kind members = .ok effect) :
    Reads (Chain.Reader.effect (room + 1)) (.object entries) effect := by
  intro rest hrest
  rw [effect_object, Chain.Reader.effectObject, bind_of_ok (reads_objectOf hgathers hrest)]
  simp only [heffect]
  rfl

theorem refuses_effect_object
    {room : Nat} {entries members : List (String × Document)} {kind : Kind}
    (hgathers :
      Gathers (Chain.Reader.effectMember room) (none, []) entries (some kind, members))
    {cause : Mismatch} (hcause : ofMembers kind members = .error cause) :
    Refuses (Chain.Reader.effect (room + 1)) (.object entries) (.mismatch cause) := by
  intro rest hrest
  rw [effect_object, Chain.Reader.effectObject, bind_of_ok (reads_objectOf hgathers hrest)]
  simp only [hcause]
  rfl

theorem reads_threshold
    (room : Nat) {threshold : Option Float32} (hreads : ∀ x ∈ threshold, Number.ReadsBack x) :
    ∃ found, Reads (value room) (Document.ofOption .ofFloat32 threshold) found ∧
      found.readNullable Document.readFloat32 = .ok threshold := by
  cases threshold with
  | none =>
      exact ⟨.null, reads_value_null room, rfl⟩
  | some x =>
      obtain ⟨number, hread, hvalue⟩ := hreads x rfl
      refine ⟨.number number, reads_value_number room hread, ?_⟩
      rw [← hvalue]
      rfl

/-- A written setting and the form in which it is collected. -/
inductive Collects (room : Nat) : String × Document → String × Document → Prop
  | setting {key : String} {written found : Document} (hkey : key ≠ "type")
      (hreads : Reads (value room) written found) :
      Collects room (key, written) (key, found)

theorem gathers_of_collects
    {room : Nat} {kind : Option Kind} {known entries found : List (String × Document)}
    (hcollects : List.Forall₂ (Collects room) entries found) :
    Gathers (Chain.Reader.effectMember room) (kind, known) entries (kind, known ++ found) := by
  induction hcollects generalizing known with
  | nil =>
      rw [List.append_nil]
      exact .none _
  | cons hfirst hrest ih =>
      cases hfirst with
      | @setting key written document hkey hreads =>
          have hlater := @ih (known ++ [(key, document)])
          rw [List.append_assoc, List.singleton_append] at hlater
          exact .more _ (effectMember_of_reads hkey hreads) hlater

theorem gathers_effect
    {room : Nat} {kind : Kind} {name : String} (hkind : kinds.lookup name = some kind)
    {entries found : List (String × Document)}
    (hcollects : List.Forall₂ (Collects room) entries found) :
    Gathers (Chain.Reader.effectMember room) (none, []) (("type", .string name) :: entries)
      (some kind, found) :=
  .more _ (effectMember_type hkind) (gathers_of_collects hcollects)

theorem gathers_adjust
    {room : Nat} (adjustment : Adjustment) {amount : Float32} {found : Document}
    (hreads : Reads (value room) (Document.ofFloat32 amount) found) :
    Gathers (Chain.Reader.effectMember room) (none, [])
      [("type", .string adjustment.name), (adjustment.fieldName, .ofFloat32 amount)]
      (some (.adjust adjustment), [(adjustment.fieldName, found)]) := by
  have hkind : kinds.lookup adjustment.name = some (.adjust adjustment) := by
    cases adjustment <;> rfl
  have hkey : adjustment.fieldName ≠ "type" := by
    cases adjustment <;> decide
  exact gathers_effect hkind (.cons (.setting hkey hreads) .nil)

/-- An effect within bounds is read as it was written. -/
theorem reads_effect (room : Nat) {effect : ChainEffect} (hsaveable : effect.Saveable) :
    Reads (Chain.Reader.effect (room + 1)) effect.document effect := by
  cases effect with
  | blur radius linearFiltering threshold =>
      obtain ⟨hradius, hthreshold⟩ := hsaveable
      obtain ⟨found, hfound, hvalue⟩ := reads_threshold room hthreshold
      have hwhole : Reads (value room) (Document.ofNat radius) (.number (.natural radius)) := by
        apply reads_value_number
        exact numberLiteral_toDigits (Nat.lt_of_lt_of_le hradius (by decide))
      have hcollects :
          List.Forall₂ (Collects room)
            [("blurRadius", .ofNat radius), ("linearFiltering", .bool linearFiltering),
              ("luminanceThreshold", .ofOption .ofFloat32 threshold)]
            [("blurRadius", .number (.natural radius)),
              ("linearFiltering", .bool linearFiltering), ("luminanceThreshold", found)] :=
        .cons (.setting (by decide) hwhole)
          (.cons (.setting (by decide) (reads_value_bool room linearFiltering))
            (.cons (.setting (by decide) hfound) .nil))
      apply reads_effect_object (gathers_effect rfl hcollects)
      have hword : (Document.number (.natural radius)).readWord = .ok radius := by
        simp [Document.readWord, hradius]
      simp [ofMembers, Settings.add, once, hword, hvalue, Document.readBool, ofSettings,
        Except.map, bind, Except.bind, pure, Except.pure]
  | adjust adjustment amount =>
      obtain ⟨number, hread, hvalue⟩ := hsaveable
      have hamount : Reads (value room) (Document.ofFloat32 amount) (.number number) :=
        reads_value_number room hread
      apply reads_effect_object (gathers_adjust adjustment hamount)
      cases adjustment <;> exact congrArg _ (congrArg _ hvalue)

/-- An amount that is no finite number was written as null, which is refused. -/
theorem refuses_effect
    (room : Nat) (adjustment : Adjustment) {amount : Float32} (hamount : amount.isFinite = false) :
    Refuses (Chain.Reader.effect (room + 1)) (adjust adjustment amount).document
      (.mismatch (.invalidType .null "f32")) := by
  have hnull : Reads (value room) (Document.ofFloat32 amount) .null := by
    intro rest hrest
    have hprinted : (Document.ofFloat32 amount).compact = Document.null.compact :=
      Number.text_single_of_not_finite hamount
    rw [hprinted]
    exact reads_value_null room hrest
  apply refuses_effect_object (gathers_adjust adjustment hnull)
  cases adjustment <;> rfl

end ChainEffect

end ShaderComposer
