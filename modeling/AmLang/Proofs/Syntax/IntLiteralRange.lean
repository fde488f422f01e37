import Mathlib.Algebra.Order.Ring.Int
import AmLang.Syntax.NumberLiteral
/-!
# The values of `Int` literals

Where an `Int` literal's value can lie. The decimal reader applies the sign first and then asks
whether the value fits 32 bits, so a decimal `Int` is always in `[-2^31, 2^31)`. The radix reader
decides the kind from the unsigned digits: up to `0xFFFFFFFF` the digits are an `Int`, read as a
32-bit two's complement pattern, and only then is a minus sign applied, in 64 bits. Negating the
pattern `0x80000000`, which is `-2^31`, gives `2^31`, one past the top of the 32-bit range, and
the kind stays `Int`.

## Main results

* `wrapSigned_mem`, `wrapSigned_eq_self` — two's complement reduction lands in the signed range
  and leaves a value already there alone.
* `parseRadix_int`, `parseDecimal_int` — what each reader gives for an `Int`.
* `parse_int_range` — every `Int` literal lies in `[-2^31, 2^31]`, and only a text that starts
  with a minus sign reaches `2^31`.
* `parse_negated_sign_bit` — `-0x80000000` is the `Int` literal `2^31`.
-/

namespace AmLang

namespace NumberLiteral

/-! ## Two's complement reduction -/

theorem int_pow_two (w : Nat) : Int.pow 2 w = 2 ^ w := rfl

theorem two_pow_eq_two_mul {w : Nat} (hw : 0 < w) : (2 : Int) ^ w = 2 * 2 ^ (w - 1) := by
  rw [← pow_succ', Nat.sub_add_cancel hw]

/-- Reducing into `w` signed bits lands in `[-2^(w-1), 2^(w-1))`. -/
theorem wrapSigned_mem {w : Nat} (hw : 0 < w) (x : Int) :
    -2 ^ (w - 1) ≤ wrapSigned w x ∧ wrapSigned w x < 2 ^ (w - 1) := by
  have hm := two_pow_eq_two_mul hw
  have hpos : (0 : Int) < 2 ^ w := pow_pos (by decide) w
  have hr0 := Int.emod_nonneg x hpos.ne'
  have hr1 := Int.emod_lt_of_pos x hpos
  simp only [wrapSigned, int_pow_two]
  split <;> omega

/-- A value already in the signed range of `w` bits is its own reduction. -/
theorem wrapSigned_eq_self {w : Nat} (hw : 0 < w) {x : Int} (hlo : -2 ^ (w - 1) ≤ x)
    (hhi : x < 2 ^ (w - 1)) : wrapSigned w x = x := by
  have hm := two_pow_eq_two_mul hw
  simp only [wrapSigned, int_pow_two]
  rcases Int.lt_or_le x 0 with hneg | hnonneg
  · -- a negative value is stored as itself plus the modulus
    have hmod : x % 2 ^ w = x + 2 ^ w := by
      rw [← Int.add_emod_right, Int.emod_eq_of_lt (by omega) (by omega)]
    rw [hmod]
    split <;> omega
  · rw [Int.emod_eq_of_lt hnonneg (by omega)]
    split <;> omega

/-! ## The two readers -/

/-- The literal chosen by the final kind test: an `Int` only when the test says so. -/
theorem int_of_ite_long {long : Bool} {w v : Int}
    (h : (if long then NumberLiteral.long w else .int w) = .int v) : long = false ∧ w = v := by
  cases long <;> simp_all

/-- An `Int` read after a radix prefix is a 32-bit value, negated when the text is. -/
theorem parseRadix_int {radix : Nat} {neg : Bool} {ds : List Char} {v : Int}
    (h : parseRadix radix neg ds = .ok (.int v)) :
    ∃ s : Int, -2 ^ 31 ≤ s ∧ s < 2 ^ 31 ∧ v = if neg then -s else s := by
  unfold parseRadix at h
  simp only [bind, Except.bind, pure, Except.pure] at h
  split at h
  · cases h
  · rename_i p _
    by_cases hany : p.2 = true
    · simp only [hany, Bool.not_true, Bool.false_eq_true, if_false] at h
      -- the kind is `Int`, so the digits were read as a 32-bit pattern
      obtain ⟨hlong, hv⟩ := int_of_ite_long (Except.ok.inj h)
      simp only [hlong, Bool.false_eq_true, if_false] at hv
      obtain ⟨hlo, hhi⟩ := wrapSigned_mem (show 0 < 32 by decide) p.1
      refine ⟨wrapSigned 32 p.1, hlo, hhi, ?_⟩
      cases neg
      · simpa using hv.symm
      · -- the negated pattern is well inside 64 bits, where reduction changes nothing
        simp only [if_true] at hv ⊢
        rw [← hv, wrapSigned_eq_self (by decide) (by omega) (by omega)]
    · simp [hany, throw, throwThe, MonadExceptOf.throw] at h

/-- A decimal `Int` is checked against the 32-bit range after its sign is applied. -/
theorem parseDecimal_int {neg : Bool} {text : List Char} {v : Int}
    (h : parseDecimal neg text = .ok (.int v)) : -2 ^ 31 ≤ v ∧ v < 2 ^ 31 := by
  unfold parseDecimal at h
  simp only [bind, Except.bind, pure, Except.pure, throw, throwThe, MonadExceptOf.throw] at h
  generalize ((List.filter (fun x => decide (x ≠ '_')) text).getLast?.getD '\x00') = last at h
  generalize (if isSuffix last = true then (List.filter (fun x => decide (x ≠ '_')) text).dropLast
      else List.filter (fun x => decide (x ≠ '_')) text) = clean at h
  generalize Char.ofNat (last.toNat &&& 223) = upper at h
  generalize isSuffix last = suffixed at h
  -- every branch but the last ends in an error, a floating literal or a `Long`
  repeat' split at h
  all_goals cases h
  -- the last branch gives an `Int` only when the value passed the 32-bit test
  all_goals
    rename_i hfit
    simp only [Bool.or_eq_true, decide_eq_true_eq, not_or] at hfit
    omega

/-! ## Every `Int` literal -/

/-- An `Int` literal is read by one of the two readers, with a sign flag that only a leading
minus sets. -/
theorem parse_int_read {t : String} {v : Int} (h : parse t = .ok (.int v)) :
    ∃ neg : Bool, (neg = true → t.toList.head? = some '-') ∧
      ((∃ radix ds, parseRadix radix neg ds = .ok (.int v)) ∨
        ∃ text, parseDecimal neg text = .ok (.int v)) := by
  unfold parse at h
  split at h
  · cases h
  · rename_i c rest htext
    generalize hp : (if c = '+' ∨ c = '-' then (c == '-', rest) else (false, c :: rest)) = p at h
    obtain ⟨neg, body⟩ := p
    refine ⟨neg, fun hn => ?_, ?_⟩
    · rw [htext]
      split at hp <;> simp_all
    -- the body: a digit first, then a radix prefix or decimal text
    rcases body with _ | ⟨d, more⟩
    · cases h
    by_cases hd : digitValue d > 9
    · simp only [hd, if_true] at h
      cases h
    simp only [hd, if_false] at h
    rcases more with _ | ⟨x, _ | ⟨y, r⟩⟩
    · exact .inr ⟨_, h⟩
    · exact .inr ⟨_, h⟩
    · simp only at h
      split at h
      · exact .inl ⟨_, _, h⟩
      split at h
      · exact .inl ⟨_, _, h⟩
      · exact .inr ⟨_, h⟩

/-- Every `Int` literal lies in `[-2^31, 2^31]`; the value `2^31`, one past the 32-bit range,
comes only from a text that starts with a minus sign. -/
theorem parse_int_range {t : String} {v : Int} (h : parse t = .ok (.int v)) :
    -2 ^ 31 ≤ v ∧ v ≤ 2 ^ 31 ∧ (v = 2 ^ 31 → t.toList.head? = some '-') := by
  obtain ⟨neg, hneg, hread⟩ := parse_int_read h
  rcases hread with ⟨radix, ds, hr⟩ | ⟨text, hd⟩
  · obtain ⟨s, hlo, hhi, rfl⟩ := parseRadix_int hr
    cases neg
    · simp only [Bool.false_eq_true, if_false]
      omega
    · simp only [if_true]
      exact ⟨by omega, by omega, fun _ => hneg rfl⟩
  · obtain ⟨hlo, hhi⟩ := parseDecimal_int hd
    exact ⟨hlo, by omega, fun hv => by omega⟩

/-- `-0x80000000` is accepted as the `Int` literal `2^31`. -/
theorem parse_negated_sign_bit :
    parse "-0x80000000" = .ok (.int (2 ^ 31)) ∧
      (-2 ^ 31 ≤ (2 ^ 31 : Int) ∧ (2 ^ 31 : Int) ≤ 2 ^ 31 ∧
        ((2 ^ 31 : Int) = 2 ^ 31 → "-0x80000000".toList.head? = some '-')) :=
  have h : parse "-0x80000000" = .ok (.int (2 ^ 31)) := by decide
  ⟨h, parse_int_range h⟩

end NumberLiteral

end AmLang
