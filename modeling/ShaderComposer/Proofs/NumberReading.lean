import ShaderComposer.Document.NumberLiteral
import ShaderComposer.Proofs.LiteralForm

/-!
# Reading numbers in front of something else

A number has no end of its own: it goes on as long as the characters fit.  The marks
that may stand behind a value do not fit, so a number that is read from a text alone is
read in the same way in front of them.  This is shown of each piece of a numeral in
turn.  A natural number is read as it was written.
-/

namespace ShaderComposer

namespace Scan

variable {α β : Type}

/-! ## Steps of a scanner -/

theorem bind_of_ok
    {scan : Scan α} {next : α → Scan β} {text rest : List Char} {value : α}
    (hscan : scan text = .ok (value, rest)) : (scan >>= next) text = next value rest := by
  change (scan text).bind _ = _
  rw [hscan]
  rfl

theorem bind_of_error
    {scan : Scan α} {next : α → Scan β} {text : List Char} {error : ReadError}
    (hscan : scan text = .error error) : (scan >>= next) text = .error error := by
  change (scan text).bind _ = _
  rw [hscan]
  rfl

@[simp] theorem pure_apply (value : α) (text : List Char) :
    (pure value : Scan α) text = .ok (value, text) := rfl

@[simp] theorem fail_apply (error : ReadError) (text : List Char) :
    (fail error : Scan α) text = .error error := rfl

@[simp] theorem peek_bind (next : Option Char → Scan β) (text : List Char) :
    (peek >>= next) text = next text.head? text := rfl

@[simp] theorem advance_bind (next : Unit → Scan β) (text : List Char) :
    (advance >>= next) text = next () text.tail := rfl

@[simp] theorem fuel_bind (next : Nat → Scan β) (text : List Char) :
    (fuel >>= next) text = next (text.length + 1) text := rfl

/-! ## What may stand behind a value -/

/-- Nothing follows, or a mark that separates values or closes an array or object. -/
def Delimited (rest : List Char) : Prop :=
  ∀ c ∈ rest.head?, c = ',' ∨ c = ']' ∨ c = '\x7d'

theorem head?_ne_of_delimited
    {rest : List Char} (hrest : Delimited rest) {c : Char}
    (hc : ¬ (c = ',' ∨ c = ']' ∨ c = '\x7d')) : rest.head? ≠ some c :=
  fun hhead => hc (hrest c hhead)

/-- What is read from a text alone is read in the same way in front of such a mark. -/
def Extends (scan : Scan α) : Prop :=
  ∀ ⦃text value left rest⦄, Delimited rest → scan text = .ok (value, left) →
    scan (text ++ rest) = .ok (value, left ++ rest)

theorem extends_pure (value : α) : Extends (pure value : Scan α) := by
  intro text found left rest _ hread
  obtain ⟨rfl, rfl⟩ : value = found ∧ text = left := by simpa using hread
  rfl

theorem extends_fail (error : ReadError) : Extends (fail error : Scan α) := by
  intro text found left rest _ hread
  contradiction

theorem Extends.bind
    {scan : Scan α} {next : α → Scan β} (hscan : Extends scan)
    (hnext : ∀ value, Extends (next value)) : Extends (scan >>= next) := by
  intro text found left rest hrest hread
  cases hfirst : scan text with
  | error error =>
      rw [bind_of_error hfirst] at hread
      contradiction
  | ok step =>
      obtain ⟨value, middle⟩ := step
      rw [bind_of_ok hfirst] at hread
      rw [bind_of_ok (hscan hrest hfirst)]
      exact hnext value hrest hread

/-- The same for texts that begin with a known character, which the scanner may take. -/
def ExtendsFrom (c : Char) (scan : Scan α) : Prop :=
  ∀ ⦃text value left rest⦄, Delimited rest → scan (c :: text) = .ok (value, left) →
    scan (c :: (text ++ rest)) = .ok (value, left ++ rest)

theorem Extends.from {scan : Scan α} (hscan : Extends scan) (c : Char) :
    ExtendsFrom c scan :=
  fun _ _ _ _ hrest hread => hscan hrest hread

theorem extendsFrom_advance
    {next : Unit → Scan α} (hnext : Extends (next ())) (c : Char) :
    ExtendsFrom c (advance >>= next) :=
  fun _ _ _ _ hrest hread => hnext hrest hread

theorem extendsFrom_sign
    {next : Scan α} (hnext : Extends next) (c : Char) {sign : Prop} [Decidable sign] :
    ExtendsFrom c (if sign then advance >>= fun _ => next else next) := by
  split
  · exact extendsFrom_advance hnext c
  · exact hnext.from c

/-- A scanner that looks at the next character, with what it does at the end of the
text: it may do nothing else in front of a mark. -/
theorem extends_peek_bind
    {next : Option Char → Scan α} (hnext : ∀ c, ExtendsFrom c (next (some c)))
    (hend :
      ∀ ⦃value left rest⦄, Delimited rest → next none [] = .ok (value, left) →
        next rest.head? rest = .ok (value, left ++ rest)) :
    Extends (peek >>= next) := by
  intro text value left rest hrest hread
  rw [peek_bind] at hread ⊢
  cases text with
  | nil =>
      exact hend hrest hread
  | cons c text =>
      exact hnext c hrest hread

/-! ## Numerals -/

theorem decimalDigit?_of_delimited
    {rest : List Char} (hrest : Delimited rest) : rest.head?.bind decimalDigit? = none := by
  cases rest with
  | nil =>
      rfl
  | cons c rest =>
      rcases hrest c rfl with rfl | rfl | rfl <;> rfl

/-- With a round for each character, a loop over digits goes on to the first other
character. -/
theorem digits_append
    {text left rest : List Char} {values : List Nat} (hrest : Delimited rest)
    {fuel more : Nat} (hfuel : text.length < fuel) (hmore : text.length < more)
    (hread : digits fuel text = .ok (values, left)) :
    digits more (text ++ rest) = .ok (values, left ++ rest) := by
  obtain ⟨fuel, rfl⟩ := Nat.exists_eq_add_one_of_ne_zero (Nat.ne_zero_of_lt hfuel)
  obtain ⟨more, rfl⟩ := Nat.exists_eq_add_one_of_ne_zero (Nat.ne_zero_of_lt hmore)
  induction text generalizing fuel more values with
  | nil =>
      obtain ⟨rfl, rfl⟩ : [] = values ∧ [] = left := by simpa [digits] using hread
      simp [digits, decimalDigit?_of_delimited hrest]
  | cons c text ih =>
      rw [List.length_cons] at hfuel hmore
      cases hdigit : decimalDigit? c with
      | none =>
          obtain ⟨rfl, rfl⟩ : [] = values ∧ c :: text = left := by
            simpa [digits, hdigit] using hread
          simp [digits, hdigit]
      | some digit =>
          obtain ⟨fuel, rfl⟩ := Nat.exists_eq_add_one_of_ne_zero (n := fuel) (by omega)
          obtain ⟨more, rfl⟩ := Nat.exists_eq_add_one_of_ne_zero (n := more) (by omega)
          have hstep (rounds : Nat) (text : List Char) :
              digits (rounds + 1) (c :: text) =
                (digits rounds >>= fun values => pure (digit :: values)) text := by
            simp [digits, hdigit]
          rw [hstep] at hread
          cases hlater : digits (fuel + 1) text with
          | error error =>
              rw [bind_of_error hlater] at hread
              contradiction
          | ok step =>
              obtain ⟨found, middle⟩ := step
              rw [bind_of_ok hlater] at hread
              obtain ⟨rfl, rfl⟩ : digit :: found = values ∧ middle = left := by
                simpa using hread
              rw [List.cons_append, hstep,
                bind_of_ok (ih fuel (by omega) hlater more (by omega))]
              rfl

theorem extends_digits : Extends (fuel >>= digits) := by
  intro text values left rest hrest hread
  rw [fuel_bind] at hread ⊢
  apply digits_append hrest (Nat.lt_succ_self _) _ hread
  rw [List.length_append]
  omega

theorem extends_someDigits (purpose : Purpose) : Extends (someDigits purpose) := by
  unfold someDigits
  apply extends_peek_bind
  · intro c
    have hnext :
        Extends
          (if (decimalDigit? c).isNone then fail .malformed
          else fuel >>= fun rounds => digits rounds : Scan (List Nat)) := by
      split
      · exact extends_fail _
      · exact extends_digits
    cases purpose <;> exact hnext.from c
  · intro value left rest hrest hread
    cases purpose <;> contradiction

theorem extends_wholeDigits (purpose : Purpose) : Extends (wholeDigits purpose) := by
  unfold wholeDigits
  apply extends_peek_bind
  · intro c
    split
    · apply extendsFrom_advance
      apply extends_peek_bind
      · intro c
        split
        · exact (extends_fail _).from c
        · exact (extends_pure _).from c
      · intro value left rest hrest hread
        obtain ⟨rfl, rfl⟩ : [0] = value ∧ [] = left := by simpa using hread
        simp [decimalDigit?_of_delimited hrest]
    · exact (extends_someDigits purpose).from c
  · intro value left rest hrest hread
    cases purpose <;> contradiction

theorem extends_fractionDigits? (purpose : Purpose) : Extends (fractionDigits? purpose) := by
  unfold fractionDigits?
  apply extends_peek_bind
  · intro c
    split
    · apply extendsFrom_advance
      exact (extends_someDigits purpose).bind fun values => extends_pure _
    · exact (extends_pure none).from c
  · intro value left rest hrest hread
    obtain ⟨rfl, rfl⟩ : none = value ∧ [] = left := by simpa using hread
    have hpoint : rest.head? ≠ some '.' := head?_ne_of_delimited hrest (by decide)
    simp [hpoint]

theorem extends_power? (purpose : Purpose) : Extends (power? purpose) := by
  unfold power?
  apply extends_peek_bind
  · intro c
    split
    · apply extendsFrom_advance
      apply extends_peek_bind
      · intro c
        have hdigits :=
          (extends_someDigits purpose).bind fun values =>
            extends_pure (some (decide (some c = some '-'), values))
        exact extendsFrom_sign hdigits c
      · intro value left rest hrest hread
        cases purpose <;> contradiction
    · exact (extends_pure none).from c
  · intro value left rest hrest hread
    obtain ⟨rfl, rfl⟩ : none = value ∧ [] = left := by simpa using hread
    have hsmall : rest.head? ≠ some 'e' := head?_ne_of_delimited hrest (by decide)
    have hlarge : rest.head? ≠ some 'E' := head?_ne_of_delimited hrest (by decide)
    simp [hsmall, hlarge]

theorem extends_numeral : Extends (numeral .value) := by
  unfold numeral
  apply extends_peek_bind
  · intro c
    have hpieces :=
      (extends_wholeDigits .value).bind fun whole =>
        (extends_fractionDigits? .value).bind fun fraction =>
          (extends_power? .value).bind fun power =>
            extends_pure
              (Numeral.mk (decide (some c = some '-')) whole fraction power)
    exact extendsFrom_sign hpieces c
  · intro value left rest hrest hread
    contradiction

theorem extends_numberLiteral : Extends numberLiteral := by
  unfold numberLiteral
  apply extends_numeral.bind
  intro numeral
  split
  · exact extends_pure _
  · exact extends_fail _

/-! ## Natural numbers -/

theorem decimalDigit?_of_isDigit {c : Char} (hdigit : c.isDigit = true) :
    decimalDigit? c = some (c.toNat - '0'.toNat) := by
  simp only [Char.isDigit, Bool.and_eq_true, decide_eq_true_eq] at hdigit
  have hrange : '0' ≤ c ∧ c ≤ '9' := hdigit
  simp [decimalDigit?, hrange]

def digitValues (text : List Char) : List Nat :=
  text.map fun c => c.toNat - '0'.toNat

theorem digits_of_isDigit
    {text : List Char} (hdigits : ∀ c ∈ text, c.isDigit = true) {fuel : Nat}
    (hfuel : text.length < fuel) :
    digits fuel text = .ok (digitValues text, []) := by
  obtain ⟨fuel, rfl⟩ := Nat.exists_eq_add_one_of_ne_zero (Nat.ne_zero_of_lt hfuel)
  induction text generalizing fuel with
  | nil =>
      rfl
  | cons c text ih =>
      rw [List.length_cons] at hfuel
      obtain ⟨fuel, rfl⟩ := Nat.exists_eq_add_one_of_ne_zero (n := fuel) (by omega)
      have hfirst := decimalDigit?_of_isDigit (hdigits c List.mem_cons_self)
      have hlater :=
        ih (fun other hother => hdigits other (List.mem_cons_of_mem c hother)) fuel (by omega)
      have hstep :
          digits (fuel + 1 + 1) (c :: text) =
            (digits (fuel + 1) >>= fun values => pure ((c.toNat - '0'.toNat) :: values)) text := by
        simp [digits, hfirst]
      rw [hstep, bind_of_ok hlater]
      rfl

theorem ofDigits_digitValues_toDigits (n : Nat) :
    Numeral.ofDigits (digitValues (Nat.toDigits 10 n)) = n := by
  have hvalue : Nat.ofDigitChars 10 (Nat.toDigits 10 n) 0 = n :=
    Nat.ofDigitChars_toDigits (by decide) (by decide)
  simp only [Nat.ofDigitChars, Nat.mul_comm] at hvalue
  rw [Numeral.ofDigits, digitValues, List.foldl_map]
  exact hvalue

theorem wholeDigits_toDigits (n : Nat) :
    wholeDigits .value (Nat.toDigits 10 n) =
      .ok (digitValues (Nat.toDigits 10 n), []) := by
  have hdigits : ∀ c ∈ Nat.toDigits 10 n, c.isDigit = true :=
    fun c hc => Nat.isDigit_of_mem_toDigits (by decide) (by decide) hc
  unfold wholeDigits
  rw [peek_bind]
  by_cases hn : 0 < n
  · rw [if_neg (Decimal.head?_toDigits_ne_zero hn), someDigits, peek_bind]
    obtain ⟨c, rest, htext⟩ := List.exists_cons_of_ne_nil (Nat.toDigits_ne_nil (n := n) (b := 10))
    rw [htext] at hdigits ⊢
    have hfirst := decimalDigit?_of_isDigit (hdigits c List.mem_cons_self)
    simp only [List.head?_cons, hfirst, Option.isNone_some, Bool.false_eq_true, if_false]
    exact digits_of_isDigit hdigits (Nat.lt_succ_self _)
  · obtain rfl : n = 0 := by omega
    rfl

/-- A natural number of 64 bits is read as it is written. -/
theorem numberLiteral_toDigits {n : Nat} (hn : n < UInt64.size) :
    numberLiteral (Nat.toDigits 10 n) = .ok (.natural n, []) := by
  have hsign : (Nat.toDigits 10 n).head? ≠ some '-' := by
    intro hsign
    have hdigit :=
      Nat.isDigit_of_mem_toDigits (b := 10) (by decide) (by decide)
        (List.mem_of_mem_head? hsign)
    contradiction
  have hnumeral :
      numeral .value (Nat.toDigits 10 n) =
        .ok (⟨false, digitValues (Nat.toDigits 10 n), none, none⟩, []) := by
    unfold numeral
    simp only [peek_bind, hsign, if_false, decide_false]
    rw [bind_of_ok (wholeDigits_toDigits n)]
    rfl
  have hvalue :
      Numeral.value? ⟨false, digitValues (Nat.toDigits 10 n), none, none⟩ =
        some (.natural n) := by
    simp [Numeral.value?, ofDigits_digitValues_toDigits, Nat.not_le.mpr hn]
  unfold numberLiteral
  rw [bind_of_ok hnumeral, hvalue]
  rfl

end Scan

end ShaderComposer
