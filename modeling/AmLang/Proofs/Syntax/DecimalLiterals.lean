import Mathlib.Data.List.TakeWhile
import AmLang.Proofs.Syntax.IntLiteralRange
/-!
# Decimal literals read back

The decimal text of an integer, as `toString` prints it, is a minus sign for a negative value
and then the digits of its magnitude (`toList_toString`). The number reader takes such a text
apart in the order the literal grammar gives: separators `_` are dropped, a trailing `L` or `l`
is the long suffix, what is left must be digits, their value is checked against the signed
64-bit range (one further for a negative text, so that `-9223372036854775808` fits), the sign is
applied and the kind is chosen: an `Int` when there is no suffix and the value fits 32 bits, a
`Long` otherwise. `integer` names that choice.

## Main results

* `parseDecimal_digits` — the decimal reader on digits and a long suffix.
* `parse_separated` — the decimal text of a 64-bit integer, with separators after its first
  digit and an optional long suffix, is read as that integer.
* `parse_toString` — the decimal text of a 64-bit integer is read back as that integer.
* `parse_too_large` — digits past the signed 64-bit range are rejected as too large.
-/

namespace AmLang

/-- The characters of an integer's decimal text: a minus sign for a negative value, then the
digits of its magnitude. -/
theorem toList_toString (v : Int) :
    (toString v).toList = (if v < 0 then ['-'] else []) ++ Nat.toDigits 10 v.natAbs := by
  rw [Int.toString_eq_repr, Int.repr_eq_if]
  split
  · rename_i h
    have : v.toNat = v.natAbs := by omega
    simp [this, Nat.toList_repr, show ¬v < 0 by omega]
  · rename_i h
    have : (-v).toNat = v.natAbs := by omega
    simp [this, Nat.toList_repr, show v < 0 by omega]

theorem toDigits_ten_isDigit {n : Nat} : ∀ c ∈ Nat.toDigits 10 n, c.isDigit := fun _ hc =>
  Nat.isDigit_of_mem_toDigits (by decide) (by decide) hc

namespace NumberLiteral

/-- The literal a decimal text without a radix prefix denotes: an `Int` when it has no suffix and
fits 32 bits, a `Long` otherwise. -/
def integer (suffixed : Bool) (v : Int) : NumberLiteral :=
  if !suffixed ∧ -2 ^ 31 ≤ v ∧ v < 2 ^ 31 then .int v else .long v

theorem integer_isIntegral (suffixed : Bool) (v : Int) : (integer suffixed v).isIntegral = true := by
  unfold integer
  split <;> rfl

/-! ## The decimal reader on digits -/

theorem spanDigits_of_digits {ds : List Char} (h : ∀ c ∈ ds, c.isDigit) :
    spanDigits ds = (ds, []) := by
  simp [spanDigits, List.takeWhile_eq_self_iff.2 h, List.dropWhile_eq_nil_iff.2 h]

theorem decimalShape_digits {ds : List Char} (hne : ds ≠ []) (h : ∀ c ∈ ds, c.isDigit) :
    decimalShape ds = .ok ⟨ds, [], 0⟩ := by
  simp [decimalShape, spanDigits_of_digits h, hne, bind, Except.bind, pure, Except.pure]

/-- A long suffix, or none. -/
def LongSuffix (sfx : List Char) : Prop := sfx = [] ∨ sfx = ['L'] ∨ sfx = ['l']

/-- The value of digits, negated under a minus sign, is what 64-bit wrapping leaves alone. -/
theorem signed_value {neg : Bool} {raw : Nat} (h : ¬raw > longMax + (if neg then 1 else 0)) :
    (if neg then wrapSigned 64 (-(raw : Int)) else raw) = if neg then -(raw : Int) else raw := by
  have hmax : (longMax : Int) = 2 ^ 63 - 1 := by decide
  cases neg
  · rfl
  · simp only [if_true] at h ⊢
    exact wrapSigned_eq_self (by decide) (by omega) (by omega)

/-- The value of digits decides between an `Int` and a `Long` as `integer` does. -/
theorem kind_test (suffixed : Bool) (v : Int) :
    (if (suffixed || decide (v > 2147483647) || decide (v < -2147483648)) = true then
      (Except.ok (NumberLiteral.long v) : Except NumberError NumberLiteral) else .ok (.int v)) =
      .ok (integer suffixed v) := by
  unfold integer
  by_cases hfit : -2 ^ 31 ≤ v ∧ v < 2 ^ 31
  · have hlo : ¬v > 2147483647 := by omega
    have hhi : ¬v < -2147483648 := by omega
    cases suffixed
    · simp only [hlo, hhi, hfit, decide_false, Bool.or_false, Bool.false_eq_true, if_false,
        Bool.not_false, true_and, if_true]
    · simp
  · have hout : (decide (v > 2147483647) || decide (v < -2147483648)) = true := by
      simp only [Bool.or_eq_true, decide_eq_true_eq]; omega
    cases suffixed
    · simp only [Bool.false_or, hout, if_true, Bool.not_false, true_and, hfit, if_false]
    · simp

theorem isDigit_not_float {c : Char} (h : c.isDigit) : (c = '.' || c = 'e' || c = 'E') = false := by
  simp only [Bool.or_eq_false_iff, decide_eq_false_iff_not]
  refine ⟨⟨?_, ?_⟩, ?_⟩ <;> rintro rfl <;> exact absurd h (by decide)

theorem isDigit_not_suffix {c : Char} (h : c.isDigit) : isSuffix c = false := by
  simp only [isSuffix, Bool.or_eq_false_iff, decide_eq_false_iff_not]
  refine ⟨⟨⟨⟨⟨?_, ?_⟩, ?_⟩, ?_⟩, ?_⟩, ?_⟩ <;> rintro rfl <;> exact absurd h (by decide)

/-- Digits and a long suffix, once the separators are gone, are read as the digits' value under
the sign, unless that value is past the range. -/
theorem parseDecimal_digits {neg : Bool} {text ds sfx : List Char}
    (hclean : text.filter (· ≠ '_') = ds ++ sfx) (hne : ds ≠ []) (hdig : ∀ c ∈ ds, c.isDigit)
    (hsfx : LongSuffix sfx) :
    parseDecimal neg text =
      if digitsValue ds > longMax + (if neg then 1 else 0) then .error .tooLarge
      else .ok (integer (!sfx.isEmpty) (if neg then -(digitsValue ds : Int) else digitsValue ds)) := by
  have hlast : ds.getLast? = some (ds.getLast hne) := List.getLast?_eq_some_getLast hne
  have hfloat : ds.any (fun c => c = '.' || c = 'e' || c = 'E') = false :=
    List.any_eq_false.2 fun c hc => by simp [isDigit_not_float (hdig c hc)]
  have hempty : ds.isEmpty = false := List.isEmpty_eq_false_iff.2 hne
  have hshape := decimalShape_digits hne hdig
  have hL : Char.ofNat ('L'.toNat &&& 223) = 'L' := by decide
  have hl : Char.ofNat ('l'.toNat &&& 223) = 'L' := by decide
  have hsL : isSuffix 'L' = true := by decide
  have hsl : isSuffix 'l' = true := by decide
  unfold parseDecimal
  rw [hclean]
  by_cases hbig : digitsValue ds > longMax + (if neg then 1 else 0)
  -- the suffix is stripped and the digits pass the shape test, whatever the suffix; a value
  -- past the range stops at the range test
  all_goals
    rcases hsfx with rfl | rfl | rfl <;>
      simp +decide only [List.append_nil, hlast, List.getLast?_concat, Option.getD_some,
        isDigit_not_suffix (hdig _ (List.getLast_mem hne)), hsL, hsl, hL, hl, List.dropLast_concat,
        Bool.false_eq_true, if_false, if_true, hempty, hfloat, Bool.and_false, Bool.or_false,
        Bool.false_and, hshape, bind, Except.bind, pure, Except.pure, throw, throwThe,
        MonadExceptOf.throw, hbig]
  -- in range, the sign is applied without wrapping and the kind test picks the literal
  all_goals rw [signed_value hbig]; exact kind_test _ _



theorem digitValue_of_isDigit {c : Char} (h : c.isDigit) : ¬digitValue c > 9 := by
  simp only [Char.isDigit, Bool.and_eq_true, decide_eq_true_eq, ge_iff_le] at h
  have h0 : '0' ≤ c := h.1
  have h9 : c ≤ '9' := h.2
  simp only [digitValue, h0, h9, and_self, if_true, Char.toNat]
  simp only [UInt32.le_iff_toNat_le] at h
  have : '9'.val.toNat = 57 := rfl
  omega

/-- Text that is a digit, then digits, separators or a long suffix, is decimal text. -/
theorem parse_sign_decimal {neg : Bool} {d : Char} {more : List Char} (hd : d.isDigit)
    (hmore : ∀ c ∈ more, c ≠ 'x' ∧ c ≠ 'X' ∧ c ≠ 'b' ∧ c ≠ 'B') :
    parse (String.ofList ((if neg then ['-'] else []) ++ d :: more)) = parseDecimal neg (d :: more) := by
  have hsign : ¬(d = '+' ∨ d = '-') := by
    rintro (rfl | rfl) <;> exact absurd hd (by decide)
  have hdv := digitValue_of_isDigit hd
  rcases more with _ | ⟨x, _ | ⟨y, r⟩⟩
  · cases neg <;> simp [parse, hsign, hdv]
  · cases neg <;> simp [parse, hsign, hdv]
  · obtain ⟨h1, h2, h3, h4⟩ := hmore x (by simp)
    cases neg <;> simp [parse, hsign, hdv, h1, h2, h3, h4]

theorem digitsValue_eq_ofDigitChars (ds : List Char) :
    digitsValue ds = Nat.ofDigitChars 10 ds 0 := by
  simp only [digitsValue, Nat.ofDigitChars_eq_foldl, Nat.mul_comm]
  rfl

theorem not_radix_of_separated {c : Char} (h : c.isDigit ∨ c = '_' ∨ c = 'L' ∨ c = 'l') :
    c ≠ 'x' ∧ c ≠ 'X' ∧ c ≠ 'b' ∧ c ≠ 'B' := by
  rcases h with h | rfl | rfl | rfl
  · refine ⟨?_, ?_, ?_, ?_⟩ <;> rintro rfl <;> exact absurd h (by decide)
  all_goals decide

/-- Decimal text with a sign, separators after the first digit and a long suffix is read as the
integer it writes. -/
theorem parse_separated {v : Int} (hlo : -2 ^ 63 ≤ v) (hhi : v < 2 ^ 63) {u sfx : List Char}
    (hfilter : u.filter (· ≠ '_') = Nat.toDigits 10 v.natAbs)
    (hhead : u.head? = (Nat.toDigits 10 v.natAbs).head?) (hsfx : LongSuffix sfx) :
    parse (String.ofList ((if v < 0 then ['-'] else []) ++ u ++ sfx)) =
      .ok (integer (!sfx.isEmpty) v) := by
  have hdig : ∀ c ∈ Nat.toDigits 10 v.natAbs, c.isDigit := toDigits_ten_isDigit
  obtain ⟨d, ds', hds⟩ := List.exists_cons_of_ne_nil (Nat.toDigits_ne_nil (n := v.natAbs) (b := 10))
  obtain ⟨rest, rfl⟩ : ∃ rest, u = d :: rest := by
    rw [hds] at hhead
    match u, hhead with
    | _ :: rest, h => exact ⟨rest, by simpa using h⟩
  have hd : d.isDigit := hdig d (by simp [hds])
  have hsep : ∀ c ∈ rest, c.isDigit ∨ c = '_' := fun c hc => by
    by_cases h : c = '_'
    · exact .inr h
    · exact .inl (hdig c (hfilter ▸ List.mem_filter.2 ⟨List.mem_cons_of_mem _ hc, by simpa using h⟩))
  have hsfx' : ∀ c ∈ sfx, c = 'L' ∨ c = 'l' := by
    rcases hsfx with rfl | rfl | rfl <;> simp
  have hmore : ∀ c ∈ rest ++ sfx, c ≠ 'x' ∧ c ≠ 'X' ∧ c ≠ 'b' ∧ c ≠ 'B' := by
    intro c hc
    rcases List.mem_append.1 hc with h | h
    · rcases hsep c h with h' | h' <;> simp [not_radix_of_separated, h']
    · rcases hsfx' c h with h' | h' <;> simp [not_radix_of_separated, h']
  have hclean : (d :: (rest ++ sfx)).filter (· ≠ '_') = Nat.toDigits 10 v.natAbs ++ sfx := by
    rw [← List.cons_append, List.filter_append, hfilter, List.filter_eq_self.2]
    intro c hc
    rcases hsfx' c hc with rfl | rfl <;> decide
  have hparse := @parse_sign_decimal (decide (v < 0)) d (rest ++ sfx) hd hmore
  simp only [decide_eq_true_eq] at hparse
  rw [List.append_assoc, List.cons_append, hparse,
    parseDecimal_digits hclean (Nat.toDigits_ne_nil) hdig hsfx,
    digitsValue_eq_ofDigitChars, Nat.ofDigitChars_ten_toDigits]
  have hmax : (longMax : Int) = 2 ^ 63 - 1 := by decide
  by_cases hneg : v < 0
  · have hbig : ¬v.natAbs > longMax + 1 := by omega
    simp only [hneg, decide_true, if_true, hbig, if_false]
    congr 2
    omega
  · have hbig : ¬v.natAbs > longMax + 0 := by omega
    simp only [hneg, decide_false, Bool.false_eq_true, if_false, hbig]
    congr 2
    omega

/-- The decimal text of an integer is read back as that integer, an `Int` exactly when it fits
32 bits. -/
theorem parse_toString {v : Int} (hlo : -2 ^ 63 ≤ v) (hhi : v < 2 ^ 63) :
    parse (toString v) = .ok (integer false v) := by
  have hplain : (Nat.toDigits 10 v.natAbs).filter (· ≠ '_') = Nat.toDigits 10 v.natAbs :=
    List.filter_eq_self.2 fun c hc => by
      simpa using fun h : c = '_' => Nat.underscore_not_in_toDigits (h ▸ hc)
  have h := parse_separated hlo hhi hplain rfl (.inl rfl)
  rwa [List.append_nil, ← toList_toString, String.ofList_toList] at h

/-- The plain digits of a natural number below `2^63` are read back as that number. -/
theorem parse_digits {n : Nat} (h : n < 2 ^ 63) :
    parse (String.ofList (Nat.toDigits 10 n)) = .ok (integer false n) := by
  have hs : String.ofList (Nat.toDigits 10 n) = toString (n : Int) := by
    have hlist := toList_toString (n : Int)
    rw [if_neg (by omega), List.nil_append, Int.natAbs_natCast] at hlist
    rw [← hlist, String.ofList_toList]
  rw [hs]
  exact parse_toString (by omega) (by exact_mod_cast h)

/-- Digits whose value is past the signed 64-bit range, one further for a negative text, are
rejected as too large. -/
theorem parse_too_large {neg : Bool} {ds : List Char} (hne : ds ≠ []) (hdig : ∀ c ∈ ds, c.isDigit)
    (hbig : 2 ^ 63 - 1 + (if neg then 1 else 0) < Nat.ofDigitChars 10 ds 0) :
    parse (String.ofList ((if neg then ['-'] else []) ++ ds)) = .error .tooLarge := by
  obtain ⟨d, more, rfl⟩ := List.exists_cons_of_ne_nil hne
  have hmore : ∀ c ∈ more, c ≠ 'x' ∧ c ≠ 'X' ∧ c ≠ 'b' ∧ c ≠ 'B' := fun c hc =>
    not_radix_of_separated (.inl (hdig c (List.mem_cons_of_mem _ hc)))
  have hclean : (d :: more).filter (· ≠ '_') = d :: more ++ [] := by
    rw [List.append_nil, List.filter_eq_self.2]
    intro c hc
    have := hdig c hc
    simp only [ne_eq, decide_eq_true_eq]
    rintro rfl
    exact absurd this (by decide)
  have hmax : longMax = 2 ^ 63 - 1 := by decide
  rw [parse_sign_decimal (hdig d (by simp)) hmore, parseDecimal_digits hclean hne hdig (.inl rfl),
    digitsValue_eq_ofDigitChars, if_pos (by rw [hmax]; exact hbig)]

end NumberLiteral

end AmLang
