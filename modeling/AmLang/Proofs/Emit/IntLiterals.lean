import AmLang.Proofs.Emit.CIntegers
import AmLang.Proofs.Syntax.DecimalLiterals
import AmLang.Emit.Body
import AmLang.Check.Body
/-!
# Integer literals in the generated C

The emitter writes an integer literal of value `v` and integer type `T` as decimal text
(`EmitM.intLiteral`): `v` for an `Int`, `vu` for a `UInt`, `INT64_C(v)` and `UINT64_C(v)` for a
`Long` and a `ULong`, and a cast `((int8_t)v)` for the narrower types. This module states how C
reads that text and what it denotes, and finds where the denotation is not `v`.

C has no negative constants: `-5` is unary minus applied to the constant `5`. A decimal constant
has the first type of the list for its suffix that can represent it (C11 6.4.4.1): `int`,
`long`, `long long` without a suffix; `unsigned int`, `unsigned long`, `unsigned long long` with
`u`; `long`, `long long` with `l`; `unsigned long`, `unsigned long long` with `ul`. A constant
that no type of its list can represent has no type, which breaks the constraint that every
constant has one (6.4.4p2). On the targets of the generated code `long` and `long long` both
have 64 bits, and `<stdint.h>` defines `INT64_C(c)` as `c ## L` and `UINT64_C(c)` as
`c ## UL`. Unary minus promotes its operand and must stay in the range of a signed type (6.5p5).
Octal constants, which start with `0`, are not read here: the emitter never writes one.

The text denotes `v` exactly when `v` lies in the range of `T`, with one exception: the least
`Long`, `-2^63`, is written `INT64_C(-9223372036854775808)`, whose constant `9223372036854775808L`
fits neither `long` nor `long long` and so has no type. The lexer reads `0x8000000000000000` as
that value.

## Main results

* `read_intLiteral` — how C reads the text of a literal of each type.
* `eval_ofInt` — a signed decimal text denotes its value reduced into the type of its constant.
* `intLiteral_denotes_iff` — the text of every integer literal denotes its value in every
  integer type that holds it, except the least `Long`.
* `least_long_literal_undefined` — the lexer and the checker produce that exception.
-/

namespace AmLang

/-- The suffixes of the decimal constants the emitter writes. -/
inductive IntSuffix where
  | none
  | unsigned
  | long
  | unsignedLong
deriving DecidableEq, Repr

namespace IntSuffix

/-- The list of types of a decimal constant with the suffix, as the target's fixed-width types
(C11 6.4.4.1p5). -/
def candidates : IntSuffix → List CInt
  | .none => [.i32, .i64, .i64]
  | .unsigned => [.u32, .u64, .u64]
  | .long => [.i64, .i64]
  | .unsignedLong => [.u64, .u64]

/-- One past the largest value the widest type of the list can represent. -/
def bound : IntSuffix → Nat
  | .none | .long => 2 ^ 63
  | .unsigned | .unsignedLong => 2 ^ 64

/-- The suffix a text spells, in either case and either order of `u` and `l`. -/
def read : List Char → Option IntSuffix
  | [] => some .none
  | [c] => if c = 'u' ∨ c = 'U' then some .unsigned
    else if c = 'l' ∨ c = 'L' then some .long else Option.none
  | [c, d] =>
    if ((c = 'u' ∨ c = 'U') ∧ (d = 'l' ∨ d = 'L')) ∨ ((c = 'l' ∨ c = 'L') ∧ (d = 'u' ∨ d = 'U'))
    then some .unsignedLong else Option.none
  | _ => Option.none

/-- The suffix of the constant in the text of a literal of type `c`: `u`, `L` (`INT64_C`) and
`UL` (`UINT64_C`) for the 32- and 64-bit types, none for `Int` and the casts. -/
def ofType : CInt → IntSuffix
  | .u32 => .unsigned
  | .i64 => .long
  | .u64 => .unsignedLong
  | _ => .none

end IntSuffix

/-- The C type named by a `<stdint.h>` name. -/
def CInt.ofName? (name : List Char) : Option CInt :=
  [CInt.i8, .i16, .i32, .i64, .u8, .u16, .u32, .u64].find? (·.cName.toList == name)

/-- The constant expressions the emitter writes for integer literals. -/
inductive CLiteral where
  /-- A decimal constant with a suffix. -/
  | constant (n : Nat) (s : IntSuffix)
  /-- Unary minus. -/
  | neg (e : CLiteral)
  /-- A parenthesised cast `((T)e)`. -/
  | cast (t : CInt) (e : CLiteral)

namespace CLiteral

/-- The type of a decimal constant: the first of its list that can represent it. -/
def constantType (n : Nat) (s : IntSuffix) : Option CInt :=
  s.candidates.find? fun t => decide (t.InRange n)

/-- The type and value of an expression; `none` when a constant has no type or a negation leaves
the range of a signed type. -/
def eval : CLiteral → Option (CInt × Int)
  | .constant n s => (constantType n s).map fun t => (t, n)
  | .neg e => e.eval.bind fun tv =>
    (tv.1.promote.result (-tv.1.promote.convert tv.2)).map fun r => (tv.1.promote, r)
  | .cast t e => e.eval.map fun tv => (t, t.convert tv.2)

/-! ## Reading the text -/

/-- A decimal constant and its suffix. The digits must be the decimal form of their value, which
excludes an octal constant's leading `0`. -/
def readUnsigned (cs : List Char) : Option CLiteral :=
  let ds := cs.takeWhile Char.isDigit
  let n := NumberLiteral.digitsValue ds
  if ds ≠ [] ∧ Nat.toDigits 10 n = ds then
    (IntSuffix.read (cs.dropWhile Char.isDigit)).map (.constant n)
  else none

/-- An optional minus sign before a decimal constant. -/
def readSigned : List Char → Option CLiteral
  | '-' :: cs => (readUnsigned cs).map .neg
  | cs => readUnsigned cs

/-- The text between `pre` and a closing parenthesis that ends `cs`. -/
def enclosed (pre cs : List Char) : Option (List Char) :=
  if pre.isPrefixOf cs ∧ cs.getLast? = some ')' then some ((cs.drop pre.length).dropLast)
  else none

/-- A type name, a closing parenthesis and the operand of a cast. -/
def readCast (cs : List Char) : Option CLiteral :=
  match cs.dropWhile (· != ')') with
  | ')' :: rest => (CInt.ofName? (cs.takeWhile (· != ')'))).bind fun t =>
    (readSigned rest).map (.cast t)
  | _ => none

/-- How C reads the text of an integer literal, with the two `<stdint.h>` macros expanded. -/
def read (cs : List Char) : Option CLiteral :=
  match enclosed "INT64_C(".toList cs with
  | some x => readSigned (x ++ ['L'])
  | none => match enclosed "UINT64_C(".toList cs with
    | some x => readSigned (x ++ ['U', 'L'])
    | none => match enclosed ['(', '('] cs with
      | some x => readCast x
      | none => readSigned cs

/-- The expression a signed decimal text of `v` with suffix `s` stands for. -/
def ofInt (v : Int) (s : IntSuffix) : CLiteral :=
  if v < 0 then .neg (.constant v.natAbs s) else .constant v.natAbs s

end CLiteral

namespace CInt

/-- Conversion into `c` forgets what conversion into a type of a multiple modulus kept. -/
theorem convert_convert_of_dvd {c t : CInt} (h : c.modulus ∣ t.modulus) (v : Int) :
    c.convert (t.convert v) = c.convert v :=
  c.convert_congr ((t.convert_modEq v).of_dvd h)

theorem convert_eq_self_iff (c : CInt) (v : Int) : c.convert v = v ↔ c.InRange v :=
  ⟨fun h => h ▸ c.convert_mem v, convert_of_mem⟩

end CInt

/-- C reads `text` as an expression whose constants all have a type and whose evaluation stays
defined, and its value converted to `c` is `v`. -/
def Denotes (text : String) (c : CInt) (v : Int) : Prop :=
  ∃ e tv, CLiteral.read text.toList = some e ∧ e.eval = some tv ∧ c.convert tv.2 = v

namespace CLiteral

/-! ## What a constant and a signed text denote -/

theorem constantType_spec {n : Nat} {s : IntSuffix} {t : CInt} (h : constantType n s = some t) :
    t ∈ s.candidates ∧ t.InRange n := by
  unfold constantType at h
  have hp := List.find?_some h
  exact ⟨List.mem_of_find?_eq_some h, of_decide_eq_true hp⟩

/-- The types of constants are promoted types already. -/
theorem promote_of_mem_candidates {s : IntSuffix} {t : CInt} (h : t ∈ s.candidates) :
    t.promote = t := by
  cases s <;> simp only [IntSuffix.candidates, List.mem_cons, List.not_mem_nil, or_false] at h <;>
    rcases h with rfl | rfl | rfl <;> rfl

/-- A constant has a type exactly when the widest type of its list can represent it. -/
theorem constantType_isSome_iff (n : Nat) (s : IntSuffix) :
    (constantType n s).isSome ↔ n < s.bound := by
  simp only [constantType, List.find?_isSome, decide_eq_true_eq]
  cases s <;>
    simp [IntSuffix.candidates, IntSuffix.bound, CInt.InRange, CInt.signed, CInt.half,
      CInt.modulus, CInt.width] <;> omega

/-- Negating a value of a signed type that is not its least one stays in range. -/
theorem inRange_neg {t : CInt} {d : Nat} (hs : t.signed = true) (h : t.InRange d) :
    t.InRange (-(d : Int)) := by
  have hh := t.half_pos
  simp only [CInt.InRange, hs, if_true] at h ⊢
  omega

/-- **A signed decimal text denotes its value reduced into the type of its constant**, and has
no meaning when its constant has no type. -/
theorem eval_ofInt (v : Int) (s : IntSuffix) :
    (ofInt v s).eval = (constantType v.natAbs s).map fun t => (t, t.convert v) := by
  rcases hct : constantType v.natAbs s with _ | t
  · unfold ofInt
    split <;> simp [eval, hct]
  · obtain ⟨hmem, hrange⟩ := constantType_spec hct
    have hp := promote_of_mem_candidates hmem
    unfold ofInt
    split
    · -- the constant is the magnitude, and C negates it in its own type
      rename_i hv
      have hd : -((v.natAbs : Nat) : Int) = v := by omega
      simp only [eval, hct, Option.map_some, Option.bind_some, hp, CInt.convert_of_mem hrange]
      rw [hd]
      cases hs : t.signed
      · simp [CInt.result, hs]
      · have hneg := inRange_neg hs hrange
        rw [hd] at hneg
        simp [CInt.result, hs, hneg, CInt.convert_of_mem hneg]
    · rename_i hv
      have hd : ((v.natAbs : Nat) : Int) = v := by omega
      rw [hd] at hrange
      simp [eval, hct, hd, CInt.convert_of_mem hrange]

/-! ## Reading the text -/

/-- Digits of a number's decimal form and then a suffix read as that constant. -/
theorem readUnsigned_digits (n : Nat) {sfx : List Char} {s : IntSuffix}
    (hs : IntSuffix.read sfx = some s) (hd : ∀ c ∈ sfx.head?, c.isDigit = false) :
    readUnsigned (Nat.toDigits 10 n ++ sfx) = some (.constant n s) := by
  have hdig : ∀ c ∈ Nat.toDigits 10 n, c.isDigit = true := toDigits_ten_isDigit
  have htake : sfx.takeWhile Char.isDigit = [] := by
    cases sfx with
    | nil => rfl
    | cons c rest => exact List.takeWhile_cons_of_neg (by simp [hd c rfl])
  have hdrop : sfx.dropWhile Char.isDigit = sfx := by
    cases sfx with
    | nil => rfl
    | cons c rest => exact List.dropWhile_cons_of_neg (by simp [hd c rfl])
  have hval : NumberLiteral.digitsValue (Nat.toDigits 10 n) = n := by
    rw [NumberLiteral.digitsValue_eq_ofDigitChars, Nat.ofDigitChars_ten_toDigits]
  simp [readUnsigned, List.takeWhile_append_of_pos hdig, List.dropWhile_append_of_pos hdig, htake,
    hdrop, hval, hs, Nat.toDigits_ne_nil]

/-- The decimal text of `v` and then a suffix read as `v`'s signed constant. -/
theorem readSigned_toString (v : Int) {sfx : List Char} {s : IntSuffix}
    (hs : IntSuffix.read sfx = some s) (hd : ∀ c ∈ sfx.head?, c.isDigit = false) :
    readSigned ((toString v).toList ++ sfx) = some (ofInt v s) := by
  rw [toList_toString, List.append_assoc]
  unfold ofInt
  split
  · simp [readSigned.eq_1, readUnsigned_digits _ hs hd]
  · obtain ⟨d, ds, hds⟩ := List.exists_cons_of_ne_nil (Nat.toDigits_ne_nil (n := v.natAbs) (b := 10))
    have hdigit : d.isDigit = true := toDigits_ten_isDigit (n := v.natAbs) d (by simp [hds])
    rw [List.nil_append, readSigned.eq_2, readUnsigned_digits _ hs hd]
    intro cs hcs
    rw [hds, List.cons_append, List.cons.injEq] at hcs
    rw [hcs.1] at hdigit
    exact absurd hdigit (by decide)

/-- The first character of an integer's decimal text is a minus sign or a digit. -/
theorem toString_head (v : Int) :
    ∃ c rest, (toString v).toList = c :: rest ∧ (c = '-' ∨ c.isDigit = true) := by
  rw [toList_toString]
  split
  · exact ⟨'-', _, rfl, .inl rfl⟩
  · obtain ⟨d, ds, hds⟩ := List.exists_cons_of_ne_nil (Nat.toDigits_ne_nil (n := v.natAbs) (b := 10))
    exact ⟨d, ds, by simp [hds], .inr (toDigits_ten_isDigit (n := v.natAbs) d (by simp [hds]))⟩

theorem enclosed_wrap (pre x : List Char) : enclosed pre (pre ++ x ++ [')']) = some x := by
  simp [enclosed, List.isPrefixOf_iff_prefix]

theorem enclosed_of_head_ne {p c : Char} (pre cs : List Char) (h : p ≠ c) :
    enclosed (p :: pre) (c :: cs) = none := by
  simp [enclosed, List.isPrefixOf_cons_cons, h]

theorem ne_of_head {c x : Char} (hc : c = '-' ∨ c.isDigit = true)
    (hx : x ≠ '-' ∧ x.isDigit = false) : x ≠ c := by
  rintro rfl
  rcases hc with h | h
  · exact hx.1 h
  · rw [hx.2] at h
    cases h

theorem int64_toList : "INT64_C(".toList = 'I' :: "NT64_C(".toList := rfl

theorem uint64_toList : "UINT64_C(".toList = 'U' :: "INT64_C(".toList := rfl

theorem close_toList : ")".toList = [')'] := rfl

/-- A text that starts with neither macro nor `((` is a signed constant. -/
theorem read_of_head {c : Char} {rest : List Char} (hI : 'I' ≠ c) (hU : 'U' ≠ c) (hP : '(' ≠ c) :
    read (c :: rest) = readSigned (c :: rest) := by
  rw [read, int64_toList, enclosed_of_head_ne _ _ hI, uint64_toList, enclosed_of_head_ne _ _ hU,
    enclosed_of_head_ne _ _ hP]

/-- `INT64_C(x)` is `x` with the suffix `L`. -/
theorem read_int64_macro (x : List Char) :
    read ("INT64_C(".toList ++ x ++ [')']) = readSigned (x ++ ['L']) := by
  rw [read, enclosed_wrap]

/-- `UINT64_C(x)` is `x` with the suffix `UL`. -/
theorem read_uint64_macro (x : List Char) :
    read ("UINT64_C(".toList ++ x ++ [')']) = readSigned (x ++ ['U', 'L']) := by
  have hI : enclosed "INT64_C(".toList ("UINT64_C(".toList ++ x ++ [')']) = none := by
    rw [int64_toList, uint64_toList, List.cons_append, List.cons_append]
    exact enclosed_of_head_ne _ _ (by decide)
  rw [read, hI, enclosed_wrap]

/-- `((x)` followed by `)` is a cast read from `x`. -/
theorem read_cast_form (x : List Char) :
    read ('(' :: '(' :: (x ++ [')'])) = readCast x := by
  have hencl : enclosed ['(', '('] ('(' :: '(' :: (x ++ [')'])) = some x := enclosed_wrap _ x
  rw [read, int64_toList, enclosed_of_head_ne _ _ (by decide), uint64_toList,
    enclosed_of_head_ne _ _ (by decide), hencl]

/-- The text of an `Int` or, with `u`, of a `UInt`. -/
theorem read_toString_append (v : Int) {sfx : List Char} {s : IntSuffix}
    (hs : IntSuffix.read sfx = some s) (hd : ∀ c ∈ sfx.head?, c.isDigit = false) :
    read ((toString v).toList ++ sfx) = some (ofInt v s) := by
  obtain ⟨c, rest, hcr, hc⟩ := toString_head v
  rw [hcr, List.cons_append, read_of_head (ne_of_head hc (by decide)) (ne_of_head hc (by decide))
    (ne_of_head hc (by decide)), ← List.cons_append, ← hcr, readSigned_toString v hs hd]

/-- The text of a `Long`: `INT64_C(v)`, that is `vL`. -/
theorem read_int64 (v : Int) :
    read ("INT64_C(" ++ toString v ++ ")").toList = some (ofInt v .long) := by
  rw [String.toList_append, String.toList_append, close_toList, read_int64_macro]
  exact readSigned_toString v rfl (by simp)

/-- The text of a `ULong`: `UINT64_C(v)`, that is `vUL`. -/
theorem read_uint64 (v : Int) :
    read ("UINT64_C(" ++ toString v ++ ")").toList = some (ofInt v .unsignedLong) := by
  rw [String.toList_append, String.toList_append, close_toList, read_uint64_macro]
  exact readSigned_toString v rfl (by simp)

/-- The text of a narrower type: `((T)v)`. -/
theorem read_cast (t : CInt) (v : Int) :
    read ("((" ++ t.cName ++ ")" ++ toString v ++ ")").toList = some (.cast t (ofInt v .none)) := by
  have hname : ∀ c ∈ t.cName.toList, (c != ')') = true := by
    cases t <;> simp [CInt.cName]
  have hof : CInt.ofName? t.cName.toList = some t := by
    cases t <;> rfl
  have htext : ("((" ++ t.cName ++ ")" ++ toString v ++ ")").toList =
      '(' :: '(' :: (t.cName.toList ++ ')' :: (toString v).toList ++ [')']) := by
    simp
  have hsig := @readSigned_toString v [] .none rfl (by simp)
  rw [List.append_nil] at hsig
  have hdrop : (t.cName.toList ++ ')' :: (toString v).toList).dropWhile (· != ')') =
      ')' :: (toString v).toList := by
    rw [List.dropWhile_append_of_pos hname]; rfl
  have htake : (t.cName.toList ++ ')' :: (toString v).toList).takeWhile (· != ')') =
      t.cName.toList := by
    rw [List.takeWhile_append_of_pos hname]; simp
  rw [htext, read_cast_form, readCast, hdrop]
  simp only [htake, hof, hsig, Option.bind_some, Option.map_some]

/-- C reads the text of `v` at type `c` as the signed constant with `c`'s suffix, or, for the
types narrower than `Int`, as its cast to `c`. -/
theorem read_intLiteral (c : CInt) (v : Int) (n : Bool) :
    read (EmitM.intLiteral v (.prim c.prim n)).toList = some (ofInt v (.ofType c)) ∨
      read (EmitM.intLiteral v (.prim c.prim n)).toList = some (.cast c (ofInt v (.ofType c))) := by
  have hint := @read_toString_append v [] .none rfl (by simp)
  have huint := @read_toString_append v ['u'] .unsigned rfl (by simp)
  rw [List.append_nil] at hint
  rw [show ['u'] = "u".toList from rfl, ← String.toList_append] at huint
  cases c
  case i32 => exact .inl hint
  case u32 => exact .inl huint
  case i64 => exact .inl (read_int64 v)
  case u64 => exact .inl (read_uint64 v)
  case i8 => exact .inr (read_cast .i8 v)
  case i16 => exact .inr (read_cast .i16 v)
  case u8 => exact .inr (read_cast .u8 v)
  case u16 => exact .inr (read_cast .u16 v)

/-! ## What the text denotes -/

theorem denotes_iff_of_read {text : String} {e : CLiteral} (h : read text.toList = some e)
    (c : CInt) (v : Int) : Denotes text c v ↔ ∃ tv, e.eval = some tv ∧ c.convert tv.2 = v := by
  constructor
  · rintro ⟨e', tv, he, hev, hc⟩
    obtain rfl : e = e' := Option.some.inj (h.symm.trans he)
    exact ⟨tv, hev, hc⟩
  · rintro ⟨tv, hev, hc⟩
    exact ⟨e, tv, h, hev, hc⟩

/-- The text of `v` at type `c` denotes `v` when its constant has a type `t` and `v`, reduced into
`t` and then into `c`, is `v` again. -/
theorem denotes_intLiteral_iff (c : CInt) (v : Int) (n : Bool) :
    Denotes (EmitM.intLiteral v (.prim c.prim n)) c v ↔
      ∃ t, constantType v.natAbs (.ofType c) = some t ∧ c.convert (t.convert v) = v := by
  rcases read_intLiteral c v n with h | h <;>
    simp [denotes_iff_of_read h, eval, eval_ofInt, CInt.convert_of_mem (CInt.convert_mem _ _)]

/-- Every type a constant of `c`'s text can take has a multiple of `c`'s modulus. -/
theorem modulus_dvd_of_mem_candidates {c t : CInt} (h : t ∈ (IntSuffix.ofType c).candidates) :
    c.modulus ∣ t.modulus := by
  cases c <;> simp only [IntSuffix.ofType, IntSuffix.candidates, List.mem_cons, List.not_mem_nil,
    or_false] at h <;> rcases h with rfl | rfl | rfl <;> decide

/-- The magnitude of a value of `c` fits the widest type for `c`'s suffix, but for the least
`Long`. -/
theorem natAbs_lt_bound_iff (c : CInt) (v : Int) (h : c.InRange v) :
    v.natAbs < (IntSuffix.ofType c).bound ↔ ¬(c = .i64 ∧ v = -2 ^ 63) := by
  cases c <;>
    simp only [CInt.InRange, CInt.signed, CInt.half, CInt.modulus, CInt.width, IntSuffix.ofType,
      IntSuffix.bound, if_true, Bool.false_eq_true, if_false, reduceCtorEq, false_and,
      not_false_eq_true, iff_true, true_and] at h ⊢ <;> omega

/-- **The text of an integer literal denotes its value** in every integer type that holds it,
except the least `Long`: `INT64_C(-9223372036854775808)` negates the constant
`9223372036854775808L`, which neither `long` nor `long long` can represent. -/
theorem intLiteral_denotes_iff (c : CInt) (v : Int) (n : Bool) :
    Denotes (EmitM.intLiteral v (.prim c.prim n)) c v ↔ c.InRange v ∧ ¬(c = .i64 ∧ v = -2 ^ 63) := by
  rw [denotes_intLiteral_iff]
  constructor
  · rintro ⟨t, ht, hc⟩
    have hmem := (constantType_spec ht).1
    rw [CInt.convert_convert_of_dvd (modulus_dvd_of_mem_candidates hmem), CInt.convert_eq_self_iff]
      at hc
    have hsome : (constantType v.natAbs (.ofType c)).isSome := by simp [ht]
    rw [constantType_isSome_iff, natAbs_lt_bound_iff c v hc] at hsome
    exact ⟨hc, hsome⟩
  · rintro ⟨hc, hleast⟩
    rw [← natAbs_lt_bound_iff c v hc, ← constantType_isSome_iff, Option.isSome_iff_exists] at hleast
    obtain ⟨t, ht⟩ := hleast
    have hmem := (constantType_spec ht).1
    refine ⟨t, ht, ?_⟩
    rw [CInt.convert_convert_of_dvd (modulus_dvd_of_mem_candidates hmem), CInt.convert_eq_self_iff]
    exact hc

/-- The hexadecimal literal `0x8000000000000000` is the least `Long`, the checker types it `Long`,
and its text denotes nothing. -/
theorem least_long_literal_undefined :
    NumberLiteral.parse "0x8000000000000000" = .ok (.long (-2 ^ 63)) ∧
      CheckM.literalType ⟨.intLit, default, "0x8000000000000000", .number (.long (-2 ^ 63))⟩ none =
        .prim CInt.i64.prim false ∧
      ¬Denotes (EmitM.intLiteral (-2 ^ 63) (.prim CInt.i64.prim false)) .i64 (-2 ^ 63) :=
  ⟨by decide, rfl, fun h => ((intLiteral_denotes_iff .i64 (-2 ^ 63) false).1 h).2 ⟨rfl, rfl⟩⟩

end CLiteral

end AmLang
