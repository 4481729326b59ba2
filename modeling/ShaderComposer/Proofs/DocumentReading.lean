import ShaderComposer.Document.Printer
import ShaderComposer.Document.Reader
import ShaderComposer.Proofs.NumberReading
import Mathlib.Data.List.Forall2

/-!
# Reading what was printed

A printed document is read without looking behind it: every literal tells its end, but
for the numbers, which end at the mark that follows.  So a reader that takes the items
of an array, or the members of an object, takes them one by one as they were printed,
up to the first that it refuses.
-/

namespace ShaderComposer

namespace Scan

variable {α β : Type}

theorem bind_pure_apply (scan : Scan α) (text : List Char) :
    (scan >>= fun value => pure value) text = scan text := by
  rw [bind_pure]

/-! ## Text literals -/

theorem hasBytes_of_le_length {n : Nat} {text : List Char} (hn : n ≤ text.length) :
    hasBytes n text = true := by
  induction text generalizing n with
  | nil =>
      obtain rfl : n = 0 := by simpa using hn
      rfl
  | cons c text ih =>
      cases n with
      | zero =>
          rfl
      | succ n =>
          have hsize := c.utf8Size_pos
          rw [List.length_cons] at hn
          exact ih (by omega)

theorem codeUnit_append
    {code : List Char} (hlength : code.length = 4) {unit : Nat}
    (hunit : hexValue? code = some unit) (rest : List Char) :
    codeUnit (code ++ rest) = .ok (unit, rest) := by
  match code, hlength with
  | [a, b, c, d], _ =>
      have hbytes : hasBytes 4 (a :: b :: c :: d :: rest) = true :=
        hasBytes_of_le_length (by simp)
      simp [codeUnit, hbytes, hunit]

/-- The code of a control character is written in four digits that stand for it. -/
theorem controlEscape_eq {c : Char} (hc : c.toNat < 0x20) :
    ∃ code, Document.controlEscape c = '\\' :: 'u' :: code ∧ code.length = 4 ∧
      hexValue? code = some c.toNat := by
  have hcodes : ∀ n < 0x20,
      ((Document.controlEscape (Char.ofNat n)).drop 2).length = 4 ∧
        hexValue? ((Document.controlEscape (Char.ofNat n)).drop 2) = some n := by
    decide
  have hcode := hcodes c.toNat hc
  rw [Char.ofNat_toNat] at hcode
  exact ⟨_, rfl, hcode⟩

theorem numericEscape_append
    {code : List Char} (hlength : code.length = 4) {c : Char} (hc : c.toNat < 0x20)
    (hunit : hexValue? code = some c.toNat) (rest : List Char) :
    numericEscape .value (code ++ rest) = .ok (c, rest) := by
  have htrailing : isTrailing c.toNat = false := by
    simp [isTrailing]
    omega
  have hleading : isLeading c.toNat = false := by
    simp [isLeading]
    omega
  unfold numericEscape
  rw [bind_of_ok (codeUnit_append hlength hunit rest)]
  simp [htrailing, hleading]

/-- A character is read from its escape, and then what follows it. -/
theorem textChars_escapeChar (c : Char) (fuel : Nat) (rest : List Char) :
    textChars .value (fuel + 1) (Document.escapeChar c ++ rest) =
      (textChars .value fuel >>= fun chars => pure (c :: chars)) rest := by
  by_cases hshort : c ∈ ['"', '\\', '\x08', '\t', '\n', '\x0c', '\r']
  · simp only [List.mem_cons, List.not_mem_nil, or_false] at hshort
    rcases hshort with rfl | rfl | rfl | rfl | rfl | rfl | rfl <;> rfl
  · simp only [List.mem_cons, List.not_mem_nil, or_false, not_or] at hshort
    obtain ⟨hquote, hbackslash, hback, htab, hline, hfeed, hreturn⟩ := hshort
    by_cases hcontrol : c.toNat < 0x20
    · obtain ⟨code, hescape, hlength, hunit⟩ := controlEscape_eq hcontrol
      have hwritten : Document.escapeChar c = '\\' :: 'u' :: code := by
        simp [Document.escapeChar, hquote, hbackslash, hback, htab, hline, hfeed, hreturn,
          hcontrol, hescape]
      have hstep :
          textChars .value (fuel + 1) ('\\' :: 'u' :: (code ++ rest)) =
            (numericEscape .value >>= fun c =>
              textChars .value fuel >>= fun chars => pure (c :: chars)) (code ++ rest) := rfl
      rw [hwritten, List.cons_append, List.cons_append, hstep,
        bind_of_ok (numericEscape_append hlength hcontrol hunit rest)]
    · have hwritten : Document.escapeChar c = [c] := by
        simp [Document.escapeChar, hquote, hbackslash, hback, htab, hline, hfeed, hreturn,
          hcontrol]
      rw [hwritten, List.singleton_append, textChars, peek_bind]
      simp only [List.head?_cons, advance_bind, List.tail_cons, hquote, hbackslash, hcontrol,
        if_false]

theorem textChars_flatMap
    {chars : List Char} {fuel : Nat} (hfuel : chars.length < fuel) (rest : List Char) :
    textChars .value fuel (chars.flatMap Document.escapeChar ++ '"' :: rest) =
      .ok (chars, rest) := by
  obtain ⟨fuel, rfl⟩ := Nat.exists_eq_add_one_of_ne_zero (Nat.ne_zero_of_lt hfuel)
  induction chars generalizing fuel with
  | nil =>
      rfl
  | cons c chars ih =>
      rw [List.length_cons] at hfuel
      obtain ⟨fuel, rfl⟩ := Nat.exists_eq_add_one_of_ne_zero (n := fuel) (by omega)
      rw [List.flatMap_cons, List.append_assoc, textChars_escapeChar,
        bind_of_ok (ih fuel (by omega))]
      rfl

theorem escapeChar_ne_nil (c : Char) : Document.escapeChar c ≠ [] := by
  unfold Document.escapeChar Document.controlEscape
  repeat' split
  all_goals simp

theorem length_le_length_flatMap (chars : List Char) :
    chars.length ≤ (chars.flatMap Document.escapeChar).length := by
  induction chars with
  | nil =>
      exact Nat.le_refl 0
  | cons c chars ih =>
      have hlength := List.length_pos_iff.mpr (escapeChar_ne_nil c)
      rw [List.flatMap_cons, List.length_append, List.length_cons]
      omega

/-- A text is read as it was printed, whatever follows it. -/
theorem textLiteral_append (text : String) (rest : List Char) :
    textLiteral .value (Document.textLiteral text ++ rest) = .ok (text, rest) := by
  have hlength := length_le_length_flatMap text.toList
  have hwritten :
      Document.textLiteral text ++ rest =
        '"' :: (text.toList.flatMap Document.escapeChar ++ '"' :: rest) := by
    simp [Document.textLiteral]
  have hchars :
      textChars .value
          ((text.toList.flatMap Document.escapeChar ++ '"' :: rest).length + 1)
          (text.toList.flatMap Document.escapeChar ++ '"' :: rest) =
        .ok (text.toList, rest) := by
    apply textChars_flatMap
    rw [List.length_append]
    omega
  rw [hwritten, textLiteral, advance_bind, List.tail_cons, fuel_bind, bind_of_ok hchars]
  simp

/-! ## Values -/

/-- The scanner reads the value from the printed document, and stops behind it. -/
def Reads (scan : Scan α) (document : Document) (value : α) : Prop :=
  ∀ ⦃rest⦄, Delimited rest → scan (document.compact ++ rest) = .ok (value, rest)

/-- The scanner stops with the error at the printed document. -/
def Refuses (scan : Scan α) (document : Document) (error : ReadError) : Prop :=
  ∀ ⦃rest⦄, Delimited rest → scan (document.compact ++ rest) = .error error

/-- The printed document begins with a character that neither is passed over nor ends
an array nor begins a null. -/
def Begins (document : Document) : Prop :=
  ∃ c rest, document.compact = c :: rest ∧ isSpace c = false ∧ c ≠ ']' ∧ c ≠ 'n'

theorem begins_string (text : String) : Begins (.string text) :=
  ⟨'"', _, rfl, by decide, by decide, by decide⟩

theorem begins_object (members : List (String × Document)) : Begins (.object members) := by
  cases members with
  | nil =>
      exact ⟨'\x7b', _, rfl, by decide, by decide, by decide⟩
  | cons member rest =>
      exact ⟨'\x7b', _, rfl, by decide, by decide, by decide⟩

theorem peekToken_bind_cons
    {c : Char} (hc : isSpace c = false) (next : Option Char → Scan β) (rest : List Char) :
    (peekToken >>= next) (c :: rest) = next (some c) (c :: rest) := by
  have hpeek : peekToken (c :: rest) = .ok (some c, c :: rest) := by
    simp [peekToken, hc]
  rw [bind_of_ok hpeek]

theorem reads_text (expected value : String) :
    Reads (text expected) (.string value) value := by
  intro rest _
  change (peekToken >>= fun token =>
    if token = some '"' then textLiteral .value else refuse expected)
      ('"' :: (value.toList.flatMap Document.escapeChar ++ ['"'] ++ rest)) = _
  rw [peekToken_bind_cons (by decide), if_pos rfl]
  exact textLiteral_append value rest

/-! ## Null and what may be null -/

theorem reads_nullable_null (scan : Scan α) : Reads (nullable scan) .null none := by
  intro rest _
  rfl

theorem Reads.nullable
    {scan : Scan α} {document : Document} {value : α} (hscan : Reads scan document value)
    (hbegins : Begins document) : Reads (nullable scan) document (some value) := by
  intro rest hrest
  obtain ⟨c, tail, htext, hspace, -, hnull⟩ := hbegins
  have hread := hscan hrest
  rw [htext, List.cons_append] at hread ⊢
  rw [Scan.nullable, peekToken_bind_cons hspace, if_neg (by simpa using hnull),
    bind_of_ok hread]
  rfl

/-! ## Values of any shape -/

theorem value_eq_scalarOr (room : Nat) : ∃ nested, value room = scalarOr nested := by
  cases room with
  | zero =>
      exact ⟨_, rfl⟩
  | succ room =>
      exact ⟨_, rfl⟩

theorem reads_value_null (room : Nat) : Reads (value room) .null .null := by
  intro rest _
  obtain ⟨nested, hvalue⟩ := value_eq_scalarOr room
  rw [hvalue]
  rfl

theorem reads_value_bool (room : Nat) (flag : Bool) :
    Reads (value room) (.bool flag) (.bool flag) := by
  intro rest _
  obtain ⟨nested, hvalue⟩ := value_eq_scalarOr room
  rw [hvalue]
  cases flag <;> rfl

/-- A literal that is read as a number begins with a sign or a digit. -/
theorem exists_head_of_numberLiteral
    {text rest : List Char} {number : Number} (hread : numberLiteral text = .ok (number, rest)) :
    ∃ c tail, text = c :: tail ∧ (c = '-' ∨ (decimalDigit? c).isSome = true) := by
  cases text with
  | nil =>
      contradiction
  | cons c tail =>
      refine ⟨c, tail, rfl, ?_⟩
      apply Decidable.byContradiction
      intro hother
      obtain ⟨hsign, hdigit⟩ := not_or.mp hother
      have hzero : c ≠ '0' := by
        rintro rfl
        exact hdigit rfl
      have hnone : decimalDigit? c = none := by simpa using hdigit
      have hwhole : wholeDigits .value (c :: tail) = .error .malformed := by
        simp [wholeDigits, someDigits, hzero, hnone]
      have hnumeral : numeral .value (c :: tail) = .error .malformed := by
        rw [numeral, peek_bind, List.head?_cons]
        simp only [Option.some.injEq, hsign]
        exact bind_of_error hwhole
      have hfails : numberLiteral (c :: tail) = .error .malformed := bind_of_error hnumeral
      rw [hfails] at hread
      contradiction

theorem reads_value_number
    (room : Nat) {written found : Number}
    (hread : numberLiteral written.text = .ok (found, [])) :
    Reads (value room) (.number written) (.number found) := by
  intro rest hrest
  have hnumber := extends_numberLiteral hrest hread
  obtain ⟨c, tail, htext, hc⟩ := exists_head_of_numberLiteral hread
  have hspace : isSpace c = false := by
    apply Bool.eq_false_iff.mpr
    intro hspace
    simp only [isSpace, Bool.or_eq_true, beq_iff_eq] at hspace
    rcases hspace with ((rfl | rfl) | rfl) | rfl <;> simp [decimalDigit?] at hc
  have hnull : c ≠ 'n' := by
    rintro rfl
    simp [decimalDigit?] at hc
  have htrue : c ≠ 't' := by
    rintro rfl
    simp [decimalDigit?] at hc
  have hfalse : c ≠ 'f' := by
    rintro rfl
    simp [decimalDigit?] at hc
  obtain ⟨nested, hvalue⟩ := value_eq_scalarOr room
  have hcompact : (Document.number written).compact = c :: tail := htext
  rw [htext, List.cons_append] at hnumber
  rw [hvalue, hcompact, List.cons_append, scalarOr, peekToken_bind_cons hspace]
  simp only [hnull, htrue, hfalse, if_false]
  rw [if_pos (by simpa using hc), bind_of_ok hnumber]
  rfl

/-! ## Arrays -/

/-- What is printed of the items of an array from some item on, and the end. -/
def itemsText : Bool → List Document → List Char
  | true, [] => [']']
  | true, item :: rest => item.compact ++ Document.compactItems rest
  | false, items => Document.compactItems items

theorem compact_array (items : List Document) :
    (Document.array items).compact = '[' :: itemsText true items := by
  cases items <;> rfl

theorem length_le_length_compactItems (items : List Document) :
    items.length ≤ (Document.compactItems items).length := by
  induction items with
  | nil =>
      exact Nat.zero_le _
  | cons item rest ih =>
      simp only [Document.compactItems, List.length_cons, List.length_append]
      omega

theorem delimited_itemsText (items : List Document) (tail : List Char) :
    Delimited (itemsText false items ++ tail) := by
  intro c hc
  cases items with
  | nil =>
      obtain rfl : ']' = c := by simpa [itemsText, Document.compactItems] using hc
      exact .inr (.inl rfl)
  | cons item rest =>
      obtain rfl : ',' = c := by simpa [itemsText, Document.compactItems] using hc
      exact .inl rfl

theorem itemFollows_itemsText
    {item : Document} (hbegins : Begins item) (first : Bool) (rest : List Document)
    (tail : List Char) :
    itemFollows first (itemsText first (item :: rest) ++ tail) =
      .ok (true, item.compact ++ (itemsText false rest ++ tail)) := by
  obtain ⟨c, text, htext, hspace, hclosing, -⟩ := hbegins
  cases first with
  | true =>
      have hprinted :
          itemsText true (item :: rest) ++ tail =
            c :: (text ++ (itemsText false rest ++ tail)) := by
        simp [itemsText, htext]
      rw [hprinted, itemFollows, peekToken_bind_cons hspace, htext]
      simp [hclosing]
  | false =>
      have hprinted :
          itemsText false (item :: rest) ++ tail =
            ',' :: c :: (text ++ (itemsText false rest ++ tail)) := by
        simp [itemsText, Document.compactItems, htext]
      rw [hprinted, itemFollows, peekToken_bind_cons (by decide)]
      simp only [Char.reduceEq, if_false, if_true, Bool.false_eq_true, advance_bind,
        List.tail_cons]
      rw [peekToken_bind_cons hspace, htext]
      simp [hclosing]

/-- Items that can be read are read one by one, and then those behind them. -/
theorem items_append
    {scan : Scan α} {front : List Document} {values : List α}
    (hreads : List.Forall₂ (Reads scan) front values)
    (hbegins : ∀ item ∈ front, Begins item) (fuel : Nat) (first : Bool)
    (back : List Document) (tail : List Char) :
    items scan (fuel + front.length) first (itemsText first (front ++ back) ++ tail) =
      (items scan fuel (first && front.isEmpty) >>= fun later => pure (values ++ later))
        (itemsText (first && front.isEmpty) back ++ tail) := by
  induction hreads generalizing first with
  | nil =>
      simp only [List.nil_append, List.length_nil, Nat.add_zero, List.isEmpty_nil,
        Bool.and_true]
      exact (bind_pure_apply _ _).symm
  | @cons item value front values hread hrest ih =>
      have hlater := ih (fun other hother => hbegins other (List.mem_cons_of_mem item hother)) false
      have hfollows :=
        itemFollows_itemsText (hbegins item List.mem_cons_self) first (front ++ back) tail
      have hitem :
          item? first scan (itemsText first (item :: (front ++ back)) ++ tail) =
            .ok (some value, itemsText false (front ++ back) ++ tail) := by
        unfold item?
        rw [bind_of_ok hfollows, if_pos rfl,
          bind_of_ok (hread (delimited_itemsText (front ++ back) tail))]
        rfl
      rw [List.length_cons, ← Nat.add_assoc, List.cons_append, items, bind_of_ok hitem]
      simp only [Bool.false_and, List.isEmpty_cons, Bool.and_false] at hlater ⊢
      cases hrun : items scan fuel false (itemsText false back ++ tail) with
      | error error =>
          rw [bind_of_error hrun] at hlater ⊢
          exact bind_of_error hlater
      | ok step =>
          obtain ⟨later, left⟩ := step
          rw [bind_of_ok hrun] at hlater ⊢
          rw [bind_of_ok hlater]
          rfl

/-- There are more characters to read than items. -/
theorem exists_rounds
    {front : List Document} (hbegins : ∀ item ∈ front, Begins item) (back : List Document)
    (tail : List Char) :
    ∃ fuel, (itemsText true (front ++ back) ++ tail).length + 1 =
      fuel + 1 + front.length := by
  have hlength : front.length ≤ (itemsText true (front ++ back)).length := by
    cases front with
    | nil =>
        exact Nat.zero_le _
    | cons item rest =>
        obtain ⟨c, text, htext, -⟩ := hbegins item List.mem_cons_self
        have hrest := length_le_length_compactItems (rest ++ back)
        simp only [List.length_append] at hrest
        simp only [itemsText, List.cons_append, htext, List.length_cons, List.length_append]
        omega
  refine ⟨(itemsText true (front ++ back) ++ tail).length - front.length, ?_⟩
  rw [List.length_append]
  omega

theorem arrayOf_open (scan : Nat → Scan α) (room : Nat) (text : List Char) :
    arrayOf (room + 1) scan ('[' :: text) =
      (items (scan room) (text.length + 1) true >>= fun values =>
        closeArray >>= fun _ => pure values) text := rfl

theorem reads_arrayOf
    {scan : Nat → Scan α} {room : Nat} {documents : List Document} {values : List α}
    (hreads : List.Forall₂ (Reads (scan room)) documents values)
    (hbegins : ∀ item ∈ documents, Begins item) :
    Reads (arrayOf (room + 1) scan) (.array documents) values := by
  intro rest _
  obtain ⟨fuel, hfuel⟩ := exists_rounds hbegins [] rest
  have hitems := items_append hreads hbegins (fuel + 1) true [] rest
  have hend :
      items (scan room) (fuel + 1) (true && documents.isEmpty)
          (itemsText (true && documents.isEmpty) [] ++ rest) =
        .ok ([], ']' :: rest) := by
    cases documents <;> rfl
  rw [bind_of_ok hend, ← hfuel, List.append_nil] at hitems
  rw [compact_array, List.cons_append, arrayOf_open, bind_of_ok hitems, List.append_nil]
  rfl

/-- An array is refused as soon as one of its items is, if those before it are read. -/
theorem refuses_arrayOf
    {scan : Nat → Scan α} {room : Nat} {front : List Document} {values : List α}
    (hreads : List.Forall₂ (Reads (scan room)) front values)
    (hbegins : ∀ item ∈ front, Begins item) {refused : Document} {error : ReadError}
    (hrefused : Begins refused) (hrefuses : Refuses (scan room) refused error)
    (back : List Document) :
    Refuses (arrayOf (room + 1) scan) (.array (front ++ refused :: back)) error := by
  intro rest _
  obtain ⟨fuel, hfuel⟩ := exists_rounds hbegins (refused :: back) rest
  have hitems := items_append hreads hbegins (fuel + 1) true (refused :: back) rest
  have hitem :
      items (scan room) (fuel + 1) (true && front.isEmpty)
          (itemsText (true && front.isEmpty) (refused :: back) ++ rest) =
        .error error := by
    apply bind_of_error
    unfold item?
    rw [bind_of_ok (itemFollows_itemsText hrefused _ back rest), if_pos rfl]
    exact bind_of_error (hrefuses (delimited_itemsText back rest))
  rw [bind_of_error hitem, ← hfuel] at hitems
  rw [compact_array, List.cons_append, arrayOf_open]
  exact bind_of_error hitems

/-! ## Objects -/

/-- What is printed of the members of an object from some member on, and the end. -/
def membersText : Bool → List (String × Document) → List Char
  | true, [] => ['\x7d']
  | true, (key, value) :: rest =>
    Document.textLiteral key ++ ':' :: value.compact ++ Document.compactMembers rest
  | false, members => Document.compactMembers members

theorem compact_object (members : List (String × Document)) :
    (Document.object members).compact = '\x7b' :: membersText true members := by
  cases members with
  | nil =>
      rfl
  | cons member rest =>
      rfl

theorem length_le_length_membersText (first : Bool) (members : List (String × Document)) :
    members.length ≤ (membersText first members).length := by
  have hfollowing (members : List (String × Document)) :
      members.length ≤ (Document.compactMembers members).length := by
    induction members with
    | nil =>
        exact Nat.zero_le _
    | cons member rest ih =>
        simp only [Document.compactMembers, List.length_cons, List.length_append]
        omega
  cases first with
  | false =>
      exact hfollowing members
  | true =>
      cases members with
      | nil =>
          exact Nat.zero_le _
      | cons member rest =>
          have hrest := hfollowing rest
          simp only [membersText, List.length_cons, List.length_append]
          omega

theorem delimited_membersText (members : List (String × Document)) (tail : List Char) :
    Delimited (membersText false members ++ tail) := by
  intro c hc
  cases members with
  | nil =>
      obtain rfl : '\x7d' = c := by simpa [membersText, Document.compactMembers] using hc
      exact .inr (.inr rfl)
  | cons member rest =>
      obtain rfl : ',' = c := by simpa [membersText, Document.compactMembers] using hc
      exact .inl rfl

theorem keyLiteral_append (key : String) (rest : List Char) :
    keyLiteral .value (Document.textLiteral key ++ rest) = .ok (key, rest) := by
  rw [← textLiteral_append key rest]
  rfl

theorem key?_membersText
    (first : Bool) (key : String) (value : Document) (rest : List (String × Document))
    (tail : List Char) :
    key? first (membersText first ((key, value) :: rest) ++ tail) =
      .ok (some key, ':' :: (value.compact ++ (membersText false rest ++ tail))) := by
  have hkey :=
    keyLiteral_append key (':' :: (value.compact ++ (membersText false rest ++ tail)))
  obtain ⟨text, htext⟩ : ∃ text, Document.textLiteral key = '"' :: text := ⟨_, rfl⟩
  rw [htext, List.cons_append] at hkey
  cases first with
  | true =>
      have hprinted :
          membersText true ((key, value) :: rest) ++ tail =
            '"' :: (text ++ ':' :: (value.compact ++ (membersText false rest ++ tail))) := by
        simp [membersText, htext]
      have hstep (text : List Char) :
          key? true ('"' :: text) =
            (keyLiteral .value >>= fun key => pure (some key)) ('"' :: text) := rfl
      rw [hprinted, hstep, bind_of_ok hkey]
      rfl
  | false =>
      have hprinted :
          membersText false ((key, value) :: rest) ++ tail =
            ',' :: '"' ::
              (text ++ ':' :: (value.compact ++ (membersText false rest ++ tail))) := by
        simp [membersText, Document.compactMembers, htext]
      have hstep (text : List Char) :
          key? false (',' :: text) =
            (keyLiteral .value >>= fun key => pure (some key)) text := rfl
      rw [hprinted, hstep, bind_of_ok hkey]
      rfl

/-- Members that are taken in one by one, and what is known after them. -/
inductive Gathers (member : α → String → Scan α) : α → List (String × Document) → α → Prop
  | none (known : α) : Gathers member known [] known
  | more {known final : α} {key : String} {value : Document}
      {rest : List (String × Document)} (next : α)
      (hmember :
        ∀ ⦃text⦄, Delimited text →
          member known key (':' :: (value.compact ++ text)) = .ok (next, text))
      (hrest : Gathers member next rest final) :
      Gathers member known ((key, value) :: rest) final

theorem Gathers.append
    {member : α → String → Scan α} {known next final : α}
    {front back : List (String × Document)} (hfront : Gathers member known front next)
    (hback : Gathers member next back final) : Gathers member known (front ++ back) final := by
  induction hfront with
  | none known =>
      exact hback
  | more next hmember hrest ih =>
      exact .more next hmember (ih hback)

theorem members_append
    {member : α → String → Scan α} {known next : α} {front : List (String × Document)}
    (hgathers : Gathers member known front next) (fuel : Nat) (first : Bool)
    (back : List (String × Document)) (tail : List Char) :
    members member (fuel + front.length) first known
        (membersText first (front ++ back) ++ tail) =
      members member fuel (first && front.isEmpty) next
        (membersText (first && front.isEmpty) back ++ tail) := by
  induction hgathers generalizing first with
  | none known =>
      simp
  | @more known final key value rest next hmember hrest ih =>
      have hkey := key?_membersText first key value (rest ++ back) tail
      have hvalue := hmember (delimited_membersText (rest ++ back) tail)
      rw [List.length_cons, ← Nat.add_assoc, List.cons_append, members, bind_of_ok hkey]
      simp only [List.isEmpty_cons, Bool.and_false]
      rw [bind_of_ok hvalue, ih false, Bool.false_and]

theorem objectOf_open
    (start : α) (member : Nat → α → String → Scan α) (room : Nat) (text : List Char) :
    objectOf (room + 1) start member ('\x7b' :: text) =
      (members (member room) (text.length + 1) true start >>= fun known =>
        advance >>= fun _ => pure known) text := rfl

theorem exists_turns (front back : List (String × Document)) (tail : List Char) :
    ∃ fuel, (membersText true (front ++ back) ++ tail).length + 1 =
      fuel + 1 + front.length := by
  have hlength := length_le_length_membersText true (front ++ back)
  refine ⟨(membersText true (front ++ back) ++ tail).length - front.length, ?_⟩
  simp only [List.length_append] at hlength ⊢
  omega

theorem reads_objectOf
    {member : Nat → α → String → Scan α} {room : Nat} {start final : α}
    {entries : List (String × Document)}
    (hgathers : Gathers (member room) start entries final) :
    Reads (objectOf (room + 1) start member) (.object entries) final := by
  intro rest _
  obtain ⟨fuel, hfuel⟩ := exists_turns entries [] rest
  have hmembers := members_append hgathers (fuel + 1) true [] rest
  have hend :
      members (member room) (fuel + 1) (true && entries.isEmpty) final
          (membersText (true && entries.isEmpty) [] ++ rest) =
        .ok (final, '\x7d' :: rest) := by
    cases entries <;> rfl
  rw [hend, ← hfuel, List.append_nil] at hmembers
  rw [compact_object, List.cons_append, objectOf_open, bind_of_ok hmembers]
  rfl

/-- An object is refused as soon as one of its members is, if those before it are
taken in. -/
theorem refuses_objectOf
    {member : Nat → α → String → Scan α} {room : Nat} {start known : α}
    {front : List (String × Document)} (hgathers : Gathers (member room) start front known)
    {key : String} {value : Document} {error : ReadError}
    (hrefuses :
      ∀ ⦃text⦄, Delimited text →
        member room known key (':' :: (value.compact ++ text)) = .error error)
    (back : List (String × Document)) :
    Refuses (objectOf (room + 1) start member) (.object (front ++ (key, value) :: back))
      error := by
  intro rest _
  obtain ⟨fuel, hfuel⟩ := exists_turns front ((key, value) :: back) rest
  have hmembers := members_append hgathers (fuel + 1) true ((key, value) :: back) rest
  have hmember :
      members (member room) (fuel + 1) (true && front.isEmpty) known
          (membersText (true && front.isEmpty) ((key, value) :: back) ++ rest) =
        .error error := by
    rw [members, bind_of_ok (key?_membersText _ key value back rest)]
    exact bind_of_error (hrefuses (delimited_membersText back rest))
  rw [hmember, ← hfuel] at hmembers
  rw [compact_object, List.cons_append, objectOf_open]
  exact bind_of_error hmembers

end Scan

end ShaderComposer
