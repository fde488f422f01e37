import Mathlib.Data.Nat.Digits.Defs
import AmLang.Proofs.Syntax.DecimalLiterals
import AmLang.Syntax.Lexer
/-!
# Hexadecimal and binary literals

After `0x` or `0b` the number reader takes the digits the lexer scanned (hexadecimal digits and
separators `_`, for either prefix) and an optional long suffix `L` or `l`. It reads them one by one
into an unsigned 64-bit word: a digit not below the radix is rejected, and so is a digit that
would carry the word past `2^64 - 1`. The test `acc > (2^64 - 1 - d) / radix` is exactly the
test that `acc * radix + d` overflows, and the value only grows from digit to digit, so a text is
rejected as too large exactly when the number its digits write is at least `2^64`.

The digits fill the bit pattern of the literal's type: a value up to `0xFFFFFFFF` without a
suffix is an `Int` read as 32-bit two's complement, anything else a `Long` read as 64-bit two's
complement; in the library's terms, `(BitVec.ofNat 32 n).toInt` and `(BitVec.ofNat 64 n).toInt`.

## Main results

* `readRadixDigits_eq` — the digit loop computes Horner's value, or stops on overflow.
* `readRadixDigits_bad` — a digit not below the radix stops the loop with an error.
* `parse_radix_text` — a radix text over hexadecimal digits is accepted exactly when its value is
  below `2^64`, and then read as `radixLiteral`; a digit not below the radix is rejected.
-/

namespace AmLang

namespace NumberLiteral

/-! ## Digits and their value -/

/-- The digit values of a radix text, its separators dropped. -/
def digitValues (s : List Char) : List Nat := (s.filter (· ≠ '_')).map digitValue

/-- The number that the digits of a radix text write, the most significant first. -/
def radixValue (radix : Nat) (s : List Char) : Nat := Nat.ofDigits radix (digitValues s).reverse

/-- The literal that a radix text of value `n` denotes: an `Int` holding the 32-bit pattern `n`
when there is no suffix and `n` fits 32 bits, a `Long` holding the 64-bit pattern `n` otherwise. -/
def radixLiteral (suffixed : Bool) (n : Nat) : NumberLiteral :=
  if !suffixed ∧ n ≤ 0xFFFFFFFF then .int (BitVec.ofNat 32 n).toInt
  else .long (BitVec.ofNat 64 n).toInt

/-- `p` is a letter that selects `radix` after a leading `0`. -/
def RadixPrefix (radix : Nat) (p : Char) : Prop :=
  (radix = 16 ∧ (p = 'x' ∨ p = 'X')) ∨ (radix = 2 ∧ (p = 'b' ∨ p = 'B'))

/-- Horner's reading of the digits `ds` after the value `acc`. -/
def horner (radix acc : Nat) (ds : List Nat) : Nat := ds.foldl (fun a d => a * radix + d) acc

@[simp] theorem digitValues_nil : digitValues [] = [] := rfl

theorem digitValues_separator (s : List Char) : digitValues ('_' :: s) = digitValues s := by
  simp [digitValues]

theorem digitValues_digit {c : Char} (hc : c ≠ '_') (s : List Char) :
    digitValues (c :: s) = digitValue c :: digitValues s := by
  simp [digitValues, hc]

theorem horner_eq (radix acc : Nat) (ds : List Nat) :
    horner radix acc ds = acc * radix ^ ds.length + Nat.ofDigits radix ds.reverse := by
  induction ds generalizing acc with
  | nil => simp [horner]
  | cons d ds ih =>
    simp only [horner, List.foldl_cons] at ih ⊢
    rw [ih, List.reverse_cons, Nat.ofDigits_append, Nat.ofDigits_singleton, List.length_reverse,
      List.length_cons, pow_succ]
    ring

/-- Reading more digits never lowers the value. -/
theorem le_horner {radix : Nat} (hr : 0 < radix) (acc : Nat) (ds : List Nat) :
    acc ≤ horner radix acc ds := by
  induction ds generalizing acc with
  | nil => exact le_rfl
  | cons d ds ih =>
    have hstep : acc ≤ acc * radix + d := Nat.le_add_right_of_le (Nat.le_mul_of_pos_right acc hr)
    exact hstep.trans (ih _)

theorem horner_zero (radix : Nat) (s : List Char) :
    horner radix 0 (digitValues s) = radixValue radix s := by
  simp [horner_eq, radixValue]

/-! ## Hexadecimal digits -/

/-- The codes of the hexadecimal digits. -/
theorem toNat_of_isHexDigit {c : Char} (h : Lexer.isHexDigit c = true) :
    (48 ≤ c.toNat ∧ c.toNat ≤ 57) ∨ (97 ≤ c.toNat ∧ c.toNat ≤ 102) ∨
      (65 ≤ c.toNat ∧ c.toNat ≤ 70) := by
  simp only [Lexer.isHexDigit, Char.isDigit, Bool.or_eq_true, Bool.and_eq_true,
    decide_eq_true_eq, Char.le_def, UInt32.le_iff_toNat_le, Char.toNat_val, Char.reduceToNat] at h
  omega

theorem digitValue_lt_of_isHexDigit {c : Char} (h : Lexer.isHexDigit c = true) :
    digitValue c < 16 := by
  have hc := toNat_of_isHexDigit h
  -- each branch of the digit table subtracts the code of its first digit
  unfold digitValue
  split_ifs <;>
    simp only [Char.le_def, UInt32.le_iff_toNat_le, Char.toNat_val, Char.reduceToNat, not_and_or,
      not_le] at * <;>
    omega

/-- A hexadecimal digit is neither a separator nor a long suffix. -/
theorem ne_of_isHexDigit {c : Char} (h : Lexer.isHexDigit c = true) :
    c ≠ '_' ∧ c ≠ 'L' ∧ c ≠ 'l' := by
  have hc := toNat_of_isHexDigit h
  refine ⟨?_, ?_, ?_⟩ <;> rintro rfl <;> simp at hc

/-! ## The digit loop -/

/-- The overflow test of the digit loop: the next digit would carry the word past its largest
value. -/
theorem overflow_iff {radix acc d : Nat} (hr : 0 < radix) (hd : d ≤ wordMax) :
    acc > (wordMax - d) / radix ↔ wordMax < acc * radix + d := by
  rw [gt_iff_lt, Nat.div_lt_iff_lt_mul hr]
  omega

/-- Over digits below the radix, the loop computes Horner's value of the digits after `acc`,
and notes whether it read any; it stops with `tooLarge` exactly when that value overflows the
word. -/
theorem readRadixDigits_eq {radix : Nat} (hr : 0 < radix) (hr16 : radix ≤ 16) :
    ∀ {cs : List Char} {acc : Nat} {any : Bool}, acc ≤ wordMax →
      (∀ c ∈ cs, c = '_' ∨ digitValue c < radix) →
      readRadixDigits radix cs acc any =
        if horner radix acc (digitValues cs) ≤ wordMax then
          .ok (horner radix acc (digitValues cs), any || !(digitValues cs).isEmpty)
        else .error .tooLarge := by
  intro cs
  induction cs with
  | nil =>
    intro acc any hacc _
    simp [readRadixDigits, horner, hacc]
  | cons c rest ih =>
    intro acc any hacc hcs
    have hrest : ∀ c ∈ rest, c = '_' ∨ digitValue c < radix :=
      fun c' hc' => hcs c' (List.mem_cons_of_mem c hc')
    by_cases hsep : c = '_'
    · subst hsep
      rw [readRadixDigits, if_pos rfl, digitValues_separator]
      exact ih hacc hrest
    have hd : digitValue c < radix := (hcs c (List.mem_cons_self ..)).resolve_left hsep
    have hmax : wordMax = 2 ^ 64 - 1 := rfl
    rw [readRadixDigits, if_neg hsep, digitValues_digit hsep, if_neg (by omega)]
    simp only [horner, List.foldl_cons]
    by_cases hover : wordMax < acc * radix + digitValue c
    · -- the value only grows, so an overflowing digit makes the whole text too large
      have hgrow := le_horner hr (acc * radix + digitValue c) (digitValues rest)
      simp only [horner] at hgrow
      rw [if_pos ((overflow_iff hr (by omega)).2 hover)]
      exact (if_neg (by omega)).symm
    · rw [if_neg (fun h => hover ((overflow_iff hr (by omega)).1 h)), ih (by omega) hrest]
      simp [horner]

/-- A digit not below the radix stops the loop with an error, whatever was read before it. -/
theorem readRadixDigits_bad {radix : Nat} :
    ∀ {cs : List Char} {acc : Nat} {any : Bool},
      (∃ c ∈ cs, c ≠ '_' ∧ radix ≤ digitValue c) → ∃ e, readRadixDigits radix cs acc any = .error e := by
  intro cs
  induction cs with
  | nil => simp
  | cons c rest ih =>
    rintro acc any ⟨b, hb, hbsep, hbad⟩
    rw [readRadixDigits]
    by_cases hsep : c = '_'
    · -- a separator is skipped; the bad digit is further on
      rw [if_pos hsep]
      have hb' : b ∈ rest := by
        rcases List.mem_cons.1 hb with rfl | hb'
        · exact absurd hsep hbsep
        · exact hb'
      exact ih ⟨b, hb', hbsep, hbad⟩
    rw [if_neg hsep]
    dsimp only
    split
    · exact ⟨_, rfl⟩
    split
    · exact ⟨_, rfl⟩
    rename_i hlt _
    -- the digit read is good, so the bad one is further on
    have hb' : b ∈ rest := by
      rcases List.mem_cons.1 hb with rfl | hb'
      · exact absurd hbad (by omega)
      · exact hb'
    exact ih ⟨b, hb', hbsep, hbad⟩

/-! ## The kind and value of the literal -/

/-- Two's complement reduction of a natural number is the library's reading of its bit
pattern. -/
theorem wrapSigned_eq_toInt {w : Nat} (hw : 0 < w) (n : Nat) :
    wrapSigned w n = (BitVec.ofNat w n).toInt := by
  have hm := two_pow_eq_two_mul hw
  rw [BitVec.toInt_ofNat']
  simp only [wrapSigned, int_pow_two, Int.bmod, Nat.cast_pow, Nat.cast_ofNat]
  have hhalf : ((2 : Int) ^ w + 1) / 2 = 2 ^ (w - 1) := by omega
  rw [hhalf]
  split_ifs <;> omega

/-- The digits fill an `Int` when there is no suffix and they fit 32 bits, a `Long` otherwise. -/
theorem radix_kind {suffixed : Bool} {v : Nat} {lit : NumberLiteral}
    (h : lit = if suffixed || decide (0xFFFFFFFF < v) then .long (wrapSigned 64 v)
      else .int (wrapSigned 32 v)) : lit = radixLiteral suffixed v := by
  rw [h, wrapSigned_eq_toInt (by decide), wrapSigned_eq_toInt (by decide)]
  unfold radixLiteral
  cases suffixed <;> by_cases hv : v ≤ 0xFFFFFFFF <;> simp [hv]

/-- After the suffix is split off, the text is read by the digit loop, and the literal is chosen
from its value. -/
theorem parseRadix_unsigned {radix : Nat} {s sfx : List Char}
    (hs : ∀ c ∈ s, c = '_' ∨ Lexer.isHexDigit c = true) (hne : s ≠ []) (hsfx : LongSuffix sfx) :
    parseRadix radix false (s ++ sfx) =
      (readRadixDigits radix s 0 false).bind fun r =>
        if r.2 then .ok (radixLiteral (!sfx.isEmpty) r.1) else .error .missingRadixDigits := by
  unfold parseRadix
  rcases hsfx with rfl | rfl | rfl
  · -- no suffix: the last character is a digit or a separator, neither `L` nor `l`
    obtain ⟨c, hc⟩ : ∃ c, s.getLast? = some c := Option.isSome_iff_exists.1 (by simpa using hne)
    obtain ⟨hL, hl⟩ : c ≠ 'L' ∧ c ≠ 'l' := by
      rcases hs c (List.mem_of_getLast? hc) with rfl | hdig
      · decide
      · exact (ne_of_isHexDigit hdig).2
    simp only [List.append_nil, hc]
    split
    · exact absurd (Option.some.inj ‹_›) hL
    · exact absurd (Option.some.inj ‹_›) hl
    simp only [Bool.false_eq_true, if_false, Bool.false_or]
    generalize readRadixDigits radix s 0 false = r
    rcases r with e | ⟨v, _ | _⟩ <;>
      simp [bind, Except.bind, throw, throwThe, MonadExceptOf.throw, pure, Except.pure]
    exact radix_kind (by by_cases hv : 4294967295 < v <;> simp [hv])
  all_goals
    -- a suffix `L` or `l` is split off and makes the literal a `Long`
    simp only [List.getLast?_concat, List.dropLast_concat, ↓reduceIte, Bool.true_or]
    generalize readRadixDigits radix s 0 false = r
    rcases r with e | ⟨v, _ | _⟩ <;>
      simp [bind, Except.bind, throw, throwThe, MonadExceptOf.throw, pure, Except.pure]
    exact radix_kind (by simp)

/-! ## Radix texts -/

/-- A `0` and a radix letter before a nonempty text send the text to the radix reader. -/
theorem parse_radix_marker {radix : Nat} {p : Char} (hp : RadixPrefix radix p) {rest : List Char}
    (hne : rest ≠ []) : parse (String.ofList ('0' :: p :: rest)) = parseRadix radix false rest := by
  obtain ⟨y, r, rfl⟩ := List.exists_cons_of_ne_nil hne
  rcases hp with ⟨rfl, rfl | rfl⟩ | ⟨rfl, rfl | rfl⟩ <;> simp [parse, digitValue]

/-- A `0x` or `0b` text over hexadecimal digits and separators, with at least one digit and an
optional long suffix: when its digits are below the radix, it is accepted exactly when the number
they write is below `2^64`, and then read as that number's bit pattern, an `Int` when there is no
suffix and the number fits 32 bits and a `Long` otherwise; a digit not below the radix is
rejected. -/
theorem parse_radix_text {radix : Nat} {p : Char} (hp : RadixPrefix radix p) {s sfx : List Char}
    (hs : ∀ c ∈ s, c = '_' ∨ Lexer.isHexDigit c = true) (hdigit : ∃ c ∈ s, c ≠ '_')
    (hsfx : LongSuffix sfx) :
    ((∀ c ∈ s, c = '_' ∨ digitValue c < radix) →
      parse (String.ofList ('0' :: p :: (s ++ sfx))) =
        if radixValue radix s < 2 ^ 64 then .ok (radixLiteral (!sfx.isEmpty) (radixValue radix s))
        else .error .tooLarge) ∧
    ((∃ c ∈ s, c ≠ '_' ∧ radix ≤ digitValue c) →
      ∃ e, parse (String.ofList ('0' :: p :: (s ++ sfx))) = .error e) := by
  obtain ⟨d, hd, hdsep⟩ := hdigit
  have hne : s ≠ [] := List.ne_nil_of_mem hd
  obtain ⟨hr, hr16⟩ : 0 < radix ∧ radix ≤ 16 := by
    rcases hp with ⟨rfl, -⟩ | ⟨rfl, -⟩ <;> decide
  rw [parse_radix_marker hp (by simp [hne]), parseRadix_unsigned hs hne hsfx]
  refine ⟨fun hgood => ?_, fun hbad => ?_⟩
  · -- the digits are read to Horner's value, and at least one was read
    have hany : (digitValues s).isEmpty = false := by
      rw [List.isEmpty_eq_false_iff, digitValues, ne_eq, List.map_eq_nil_iff]
      exact List.ne_nil_of_mem (List.mem_filter.2 ⟨hd, by simpa using hdsep⟩)
    have hmax : wordMax = 2 ^ 64 - 1 := rfl
    rw [readRadixDigits_eq hr hr16 (Nat.zero_le _) hgood, horner_zero]
    by_cases hv : radixValue radix s < 2 ^ 64
    · rw [if_pos (by omega), if_pos hv]
      simp [hany, Except.bind]
    · rw [if_neg (by omega), if_neg hv]
      rfl
  · obtain ⟨e, he⟩ := @readRadixDigits_bad radix s 0 false hbad
    exact ⟨e, by rw [he]; rfl⟩

/-- The largest hexadecimal literal, sixteen `F`s in groups of four, is the `Long` `-1`. -/
theorem all_ones_hex_literal :
    RadixPrefix 16 'x' ∧ (∀ c ∈ "FFFF_FFFF_FFFF_FFFF".toList, c = '_' ∨ Lexer.isHexDigit c = true) ∧
      (∃ c ∈ "FFFF_FFFF_FFFF_FFFF".toList, c ≠ '_') ∧ LongSuffix [] ∧
      ((∀ c ∈ "FFFF_FFFF_FFFF_FFFF".toList, c = '_' ∨ digitValue c < 16) →
        parse (String.ofList ('0' :: 'x' :: ("FFFF_FFFF_FFFF_FFFF".toList ++ []))) =
          if radixValue 16 "FFFF_FFFF_FFFF_FFFF".toList < 2 ^ 64 then
            .ok (radixLiteral (!([] : List Char).isEmpty) (radixValue 16 "FFFF_FFFF_FFFF_FFFF".toList))
          else .error .tooLarge) ∧
      ((∃ c ∈ "FFFF_FFFF_FFFF_FFFF".toList, c ≠ '_' ∧ 16 ≤ digitValue c) →
        ∃ e, parse (String.ofList ('0' :: 'x' :: ("FFFF_FFFF_FFFF_FFFF".toList ++ []))) =
          .error e) := by
  have hp : RadixPrefix 16 'x' := .inl ⟨rfl, .inl rfl⟩
  have hs : ∀ c ∈ "FFFF_FFFF_FFFF_FFFF".toList, c = '_' ∨ Lexer.isHexDigit c = true := by
    simp [Lexer.isHexDigit]
  have hdigit : ∃ c ∈ "FFFF_FFFF_FFFF_FFFF".toList, c ≠ '_' := ⟨'F', by simp, by decide⟩
  exact ⟨hp, hs, hdigit, .inl rfl, parse_radix_text hp hs hdigit (.inl rfl)⟩

example : parse "0xFFFF_FFFF_FFFF_FFFF" = .ok (.long (-1)) := by decide

example : parse "0x8000_0000" = .ok (.int (-2 ^ 31)) := by decide

example : parse "0b1_0000_0000_0000_0000_0000_0000_0000_0000_0000_0000_0000_0000_0000_0000_0000_0000"
    = .error .tooLarge := by decide

end NumberLiteral

end AmLang
