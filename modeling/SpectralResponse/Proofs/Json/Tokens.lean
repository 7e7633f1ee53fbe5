import SpectralResponse.Json.Parser
import SpectralResponse.Json.Printer
import Mathlib.Data.List.TakeDrop
import Mathlib.Data.List.TakeWhile

/-!
# Texts and numbers of JSON

A text in quotes and a whole number are read as what was written, whatever follows them. What follows a
number must not go on with it (`IsEnd`); a number that is read when nothing follows it is then read in
the same way.

## What is proved

* `quoted?_flatMap_escaped` — a text is read back up to its closing quote, escapes and control characters
  included.
* `number?_append` — what a number is read as does not depend on what follows its end.
* `number?_toString` — a whole number in the range of the reader is read back, and stays a whole number.
-/

namespace SpectralResponse.Json

variable {α : Type}

/-! ### Texts -/

theorem hexDigit?_hexDigit : ∀ n < 16, hexDigit? (hexDigit n) = some n := by decide

/-- A control character is read from its four hexadecimal digits. -/
theorem unicodeEscape?_control {c : Char} (h : c.toNat < 0x20) (rest : List Char) :
    unicodeEscape? ('0' :: '0' :: hexDigit (c.toNat / 16) :: hexDigit (c.toNat % 16) :: rest) =
      some (some c, rest) := by
  have hhigh := hexDigit?_hexDigit (c.toNat / 16) (by omega)
  have hlow := hexDigit?_hexDigit (c.toNat % 16) (by omega)
  have hzero : hexDigit? '0' = some 0 := by decide
  have hvalue : c.toNat / 16 * 16 + c.toNat % 16 = c.toNat := by omega
  have hwhole : isHighHalf c.toNat = false ∧ isLowHalf c.toNat = false := by
    simp [isHighHalf, isLowHalf]
    omega
  simp [unicodeEscape?, hex4?, hhigh, hlow, hzero, hvalue, hwhole]

/-- One character is read back in one step, however it is written. -/
theorem quoted?_escaped (fuel : Nat) (read : List Char) (c : Char) (rest : List Char) :
    quoted? (fuel + 1) (some read) (escaped c ++ rest) = quoted? fuel (some (c :: read)) rest := by
  unfold escaped
  split
  -- Seven characters have an escape of two letters.
  iterate 7 simp [quoted?, escape?]
  next hquote hbackslash _ _ _ _ _ =>
    split
    next hcontrol => simp [quoted?, escape?, unicodeEscape?_control hcontrol]
    next hplain =>
      rw [List.singleton_append, quoted?]
      · simp [hplain]
      · exact hquote
      · exact hbackslash

/-- A text is read back up to its closing quote. -/
theorem quoted?_flatMap_escaped (cs read rest : List Char) {fuel : Nat} (h : cs.length < fuel) :
    quoted? fuel (some read) (cs.flatMap escaped ++ '"' :: rest) =
      some (some (String.ofList (read.reverse ++ cs)), rest) := by
  induction cs generalizing fuel read with
  | nil =>
    obtain ⟨fuel, rfl⟩ := Nat.exists_eq_succ_of_ne_zero (Nat.ne_of_gt h)
    simp [quoted?]
  | cons c cs ih =>
    obtain ⟨fuel, rfl⟩ := Nat.exists_eq_succ_of_ne_zero (Nat.ne_of_gt (Nat.zero_lt_of_lt h))
    rw [List.flatMap_cons, List.append_assoc, quoted?_escaped, ih _ (Nat.lt_of_succ_lt_succ h)]
    simp

theorem escaped_ne_nil (c : Char) : escaped c ≠ [] := by
  unfold escaped
  split
  iterate 7 simp
  split <;> simp

theorem length_le_flatMap_escaped (cs : List Char) : cs.length ≤ (cs.flatMap escaped).length := by
  induction cs with
  | nil => simp
  | cons c cs ih =>
    have hpos := List.length_pos_iff.2 (escaped_ne_nil c)
    rw [List.flatMap_cons, List.length_append, List.length_cons]
    omega

theorem toList_quote (s : String) : (quote s).toList = '"' :: s.toList.flatMap escaped ++ ['"'] := by
  simp [quote]

/-! ### The end of a number -/

/-- What may follow a value: nothing, or a text that starts with a blank, a comma or a closing
bracket. -/
def IsEnd (rest : List Char) : Prop :=
  ∀ c ∈ rest.head?, isBlank c ∨ c = ',' ∨ c = ']' ∨ c = '\x7d'

theorem isEnd_nil : IsEnd [] := by simp [IsEnd]

theorem isEnd_cons {c : Char} {rest : List Char} :
    IsEnd (c :: rest) ↔ isBlank c ∨ c = ',' ∨ c = ']' ∨ c = '\x7d' := by simp [IsEnd]

theorem isEnd_comma (rest : List Char) : IsEnd (',' :: rest) := by simp [IsEnd]

theorem isEnd_bracket (rest : List Char) : IsEnd (']' :: rest) := by simp [IsEnd]

theorem isEnd_brace (rest : List Char) : IsEnd ('\x7d' :: rest) := by simp [IsEnd]

/-- No number goes on with what may follow a value. -/
theorem IsEnd.head_not {c : Char} {rest : List Char} (h : IsEnd (c :: rest)) :
    c.isDigit = false ∧ c ≠ '.' ∧ c ≠ 'e' ∧ c ≠ 'E' := by
  have hc := isEnd_cons.1 h
  simp only [isBlank, Bool.or_eq_true, beq_iff_eq] at hc
  rcases hc with ((((rfl | rfl) | rfl) | rfl) | rfl | rfl | rfl) <;> decide

theorem span_isDigit_append {cs rest : List Char} (h : IsEnd rest) :
    (cs ++ rest).span Char.isDigit =
      ((cs.span Char.isDigit).1, (cs.span Char.isDigit).2 ++ rest) := by
  simp only [List.span_eq_takeWhile_dropWhile]
  induction cs with
  | nil =>
    cases rest with
    | nil => rfl
    | cons c rest => simp [h.head_not.1]
  | cons c cs ih => cases hdigit : c.isDigit <;> simp_all

theorem leadingDigits?_append {cs digits rest after : List Char}
    (h : leadingDigits? cs = some (digits, after)) (hrest : IsEnd rest) :
    leadingDigits? (cs ++ rest) = some (digits, after ++ rest) := by
  unfold leadingDigits? at h ⊢
  rw [span_isDigit_append hrest]
  generalize cs.span Char.isDigit = found at h ⊢
  split at h <;> simp_all

theorem places?_of_isEnd {rest : List Char} (h : IsEnd rest) : places? rest = some (none, rest) := by
  unfold places?
  split
  · exact absurd rfl h.head_not.2.1
  · rfl

theorem places?_append {cs rest after : List Char} {digits : Option (List Char)}
    (h : places? cs = some (digits, after)) (hrest : IsEnd rest) :
    places? (cs ++ rest) = some (digits, after ++ rest) := by
  unfold places? at h
  split at h
  next cs =>
    rw [List.cons_append, places?, span_isDigit_append hrest]
    generalize cs.span Char.isDigit = found at h ⊢
    split at h <;> simp_all
  next hpoint =>
    obtain ⟨rfl, rfl⟩ : none = digits ∧ cs = after := by simpa using h
    cases cs with
    | nil => exact places?_of_isEnd hrest
    | cons c cs =>
      rw [List.cons_append, places?]
      intro cs' hcs'
      exact hpoint cs (by rw [(List.cons.inj hcs').1])

theorem power?_of_isEnd {rest : List Char} (h : IsEnd rest) : power? rest = some (none, rest) := by
  cases rest with
  | nil => rfl
  | cons c rest => simp [power?, h.head_not.2.2]

theorem sign_cons {c : Char} (cs : List Char) (hminus : c ≠ '-') (hplus : c ≠ '+') :
    Numeral.sign (c :: cs) = (false, c :: cs) := by
  rw [Numeral.sign]
  · simp [hminus]
  · simp [hplus]

theorem sign_append {cs : List Char} (h : cs ≠ []) (rest : List Char) :
    Numeral.sign (cs ++ rest) = ((Numeral.sign cs).1, (Numeral.sign cs).2 ++ rest) := by
  cases cs with
  | nil => exact absurd rfl h
  | cons c cs =>
    by_cases hminus : c = '-'
    · rw [hminus]
      rfl
    by_cases hplus : c = '+'
    · rw [hplus]
      rfl
    rw [List.cons_append, sign_cons _ hminus hplus, sign_cons _ hminus hplus]
    rfl

theorem power?_append {cs rest after : List Char} {power : Option Int}
    (h : power? cs = some (power, after)) (hrest : IsEnd rest) :
    power? (cs ++ rest) = some (power, after ++ rest) := by
  cases cs with
  | nil =>
    obtain ⟨rfl, rfl⟩ : none = power ∧ [] = after := by simpa [power?] using h
    exact power?_of_isEnd hrest
  | cons c cs =>
    rw [List.cons_append]
    rw [power?] at h ⊢
    by_cases he : c = 'e' ∨ c = 'E'
    · rw [if_pos he] at h ⊢
      have hne : cs ≠ [] := by
        rintro rfl
        cases h
      rw [sign_append hne]
      generalize Numeral.sign cs = signAndRest at h ⊢
      obtain ⟨negative, magnitude⟩ := signAndRest
      simp only [span_isDigit_append hrest] at h ⊢
      generalize magnitude.span Char.isDigit = found at h ⊢
      split at h <;> simp_all
    · rw [if_neg he] at h ⊢
      cases h
      rfl

/-! ### Numbers -/

section Numbers

variable [Scalar α]

/-- Reads a number whose sign has been read. -/
def unsigned? (negative : Bool) (magnitude : List Char) : Option (Json α × List Char) := do
  let (digits, rest) ← leadingDigits? magnitude
  let (places, rest) ← places? rest
  let (power, rest) ← power? rest
  match places, power with
  | none, none => return (signed negative digits, rest)
  | _, _ =>
    let places := places.getD []
    let decimal : Decimal := ⟨Numeral.natOfDigits (digits ++ places), power.getD 0 - places.length⟩
    return (real (Numeral.decimal negative decimal).value, rest)

theorem number?_minus (cs : List Char) : number? (α := α) ('-' :: cs) = unsigned? true cs := rfl

theorem number?_of_ne {c : Char} (cs : List Char) (h : c ≠ '-') :
    number? (α := α) (c :: cs) = unsigned? false (c :: cs) := by
  unfold number? unsigned?
  split
  next negative magnitude hsign =>
    split at hsign
    next cs' hcs => exact absurd (List.cons.inj hcs).1 h
    next =>
      cases hsign
      rfl

theorem unsigned?_append {negative : Bool} {cs rest after : List Char} {j : Json α}
    (h : unsigned? negative cs = some (j, after)) (hrest : IsEnd rest) :
    unsigned? negative (cs ++ rest) = some (j, after ++ rest) := by
  simp only [unsigned?, Option.bind_eq_bind, Option.bind_eq_some_iff, Prod.exists] at h
  obtain ⟨digits, afterDigits, hdigits, places, afterPlaces, hplaces, power, afterPower, hpower, h⟩ := h
  simp only [unsigned?, leadingDigits?_append hdigits hrest, places?_append hplaces hrest,
    power?_append hpower hrest, Option.bind_eq_bind, Option.bind_some]
  split at h <;> simp_all

/-- What a number is read as does not depend on what follows its end. -/
theorem number?_append {cs rest after : List Char} {j : Json α}
    (h : number? cs = some (j, after)) (hrest : IsEnd rest) :
    number? (cs ++ rest) = some (j, after ++ rest) := by
  cases cs with
  | nil => cases h
  | cons c cs =>
    by_cases hminus : c = '-'
    · subst hminus
      exact unsigned?_append h hrest
    · rw [number?_of_ne _ hminus] at h
      rw [List.cons_append, number?_of_ne _ hminus]
      exact unsigned?_append h hrest

/-- Digits in front of a number without sign are there. -/
theorem isDigit_of_unsigned? {negative : Bool} {c : Char} {cs after : List Char} {j : Json α}
    (h : unsigned? negative (c :: cs) = some (j, after)) : c.isDigit := by
  by_contra hdigit
  have hnone : leadingDigits? (c :: cs) = none := by
    simp [leadingDigits?, List.span_eq_takeWhile_dropWhile, hdigit]
  simp [unsigned?, hnone] at h

/-- The first character of a number is a minus or a digit. -/
theorem head_of_number? {cs after : List Char} {j : Json α} (h : number? cs = some (j, after)) :
    ∃ c cs', cs = c :: cs' ∧ (c = '-' ∨ c.isDigit) := by
  cases cs with
  | nil => cases h
  | cons c cs =>
    refine ⟨c, cs, rfl, ?_⟩
    by_cases hminus : c = '-'
    · exact .inl hminus
    · rw [number?_of_ne _ hminus] at h
      exact .inr (isDigit_of_unsigned? h)

/-! ### Whole numbers -/

omit [Scalar α] in
theorem natOfDigits_toDigits (n : Nat) : Numeral.natOfDigits (Nat.toDigits 10 n) = n :=
  Nat.ofDigitChars_toDigits (by decide) (by decide)

omit [Scalar α] in
/-- The digits of a number above zero start with another digit than zero. -/
theorem toDigits_eq_cons {n : Nat} (h : 0 < n) : ∃ c cs, Nat.toDigits 10 n = c :: cs ∧ c ≠ '0' := by
  induction n using Nat.strongRecOn with
  | ind n ih =>
    by_cases hsmall : n < 10
    · have hdigit : ∀ n < 10, 0 < n → Nat.digitChar n ≠ '0' := by decide
      exact ⟨n.digitChar, [], Nat.toDigits_of_lt_base hsmall, hdigit n hsmall h⟩
    · obtain ⟨c, cs, hdigits, hc⟩ := ih (n / 10) (by omega) (by omega)
      refine ⟨c, cs ++ [Nat.digitChar (n % 10)], ?_, hc⟩
      rw [Nat.toDigits_of_base_le (by decide) (by omega), hdigits]
      rfl

omit [Scalar α] in
theorem leadingDigits?_toDigits (n : Nat) :
    leadingDigits? (Nat.toDigits 10 n) = some (Nat.toDigits 10 n, []) := by
  have hdigits : ∀ c ∈ Nat.toDigits 10 n, c.isDigit := fun c hc =>
    Nat.isDigit_of_mem_toDigits (by decide) (by decide) hc
  have hspan : (Nat.toDigits 10 n).span Char.isDigit = (Nat.toDigits 10 n, []) := by
    rw [List.span_eq_takeWhile_dropWhile, List.takeWhile_eq_self_iff.2 hdigits,
      List.dropWhile_eq_nil_iff.2 hdigits]
  rw [leadingDigits?, hspan]
  rcases Nat.eq_zero_or_pos n with rfl | hpos
  · rfl
  · obtain ⟨c, cs, hcons, hzero⟩ := toDigits_eq_cons hpos
    rw [hcons]
    split <;> simp_all

theorem unsigned?_toDigits (negative : Bool) (n : Nat) :
    unsigned? (α := α) negative (Nat.toDigits 10 n) = some (signed negative (Nat.toDigits 10 n), []) := by
  rw [unsigned?, leadingDigits?_toDigits]
  rfl

/-- A whole number in the range of the reader is read back, and stays a whole number. -/
theorem number?_toString {n : Int} (hlo : Scalar.minWord ≤ n) (hhi : n ≤ maxNatural) :
    number? (toString n).toList = some (.whole (α := α) n, []) := by
  rw [Scalar.minWord] at hlo
  cases n with
  | ofNat n =>
    have htext : (toString (Int.ofNat n)).toList = Nat.toDigits 10 n := Nat.toList_repr
    obtain ⟨c, cs, hcons⟩ := List.exists_cons_of_ne_nil (Nat.toDigits_ne_nil (n := n) (b := 10))
    have hminus : c ≠ '-' := by
      have hdigit : c.isDigit :=
        Nat.isDigit_of_mem_toDigits (by decide) (by decide) (hcons ▸ List.mem_cons_self)
      rintro rfl
      cases hdigit
    have hfits : n ≤ maxNatural := Int.ofNat_le.1 hhi
    rw [htext, hcons, number?_of_ne cs hminus, ← hcons, unsigned?_toDigits, signed,
      natOfDigits_toDigits]
    simp [hfits]
  | negSucc n =>
    have htext : (toString (Int.negSucc n)).toList = '-' :: Nat.toDigits 10 (n + 1) := by
      show ("-" ++ (n + 1).repr).toList = _
      rw [String.toList_append, Nat.toList_repr]
      rfl
    have hfits : 0 < n + 1 ∧ n + 1 ≤ 9223372036854775808 := by omega
    rw [htext, number?_minus, unsigned?_toDigits, signed, natOfDigits_toDigits]
    simp only [if_true, hfits, Int.negSucc_eq]
    rfl

end Numbers

end SpectralResponse.Json
