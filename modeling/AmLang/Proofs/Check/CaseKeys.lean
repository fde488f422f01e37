import Std.Data.String.ToInt
import AmLang.Check.Rules
/-!
# Keys of constant case values

A switch reports a case value as a duplicate when its key (`caseKey`) is the key of an earlier
value of the same switch. A key is made for a literal, and for a numeric literal under one minus
sign: `n:` and the integer's decimal numeral, with `-` in front for the minus sign, or `s:`,
`c:`, `b:` and `null` for the other kinds of literal.

The lexer reads a `-` that touches a number as part of the literal, so `-5` is one literal and
`- -5` is a minus over the literal `-5`. Its key `n:--5` is no integer's numeral: a minus over a
literal that is zero or negative gives its value a key of its own, and `- -5` is not reported
after `5`, nor `- 0` after `0`, although each pair denotes one value.

## Main results

* `minus_append_toString_eq_iff` — a minus sign in front of an integer's numeral spells an
  integer's numeral only in front of a positive one, and then it spells its negation's.
* `caseKey_eq_iff` — two constant case values have one key exactly when they denote one value
  and neither or both are a minus over a literal that is zero or negative.
-/

namespace AmLang

/-! ## Decimal numerals of integers -/

theorem minus_not_mem_nat_repr (k : Nat) : '-' ∉ k.repr.toList := fun h => by
  rw [Nat.toList_repr] at h
  simpa using @Nat.isDigit_of_mem_toDigits 10 k '-' (by decide) (by decide) h

theorem toString_of_nonneg {v : Int} (h : 0 ≤ v) : toString v = v.toNat.repr := by
  rw [Int.toString_eq_repr, Int.repr_eq_if, if_pos h]

theorem toString_of_neg {v : Int} (h : v < 0) : toString v = "-" ++ (-v).toNat.repr := by
  rw [Int.toString_eq_repr, Int.repr_eq_if, if_neg (by omega)]

/-- A minus sign in front of a positive integer's numeral is its negation's numeral. -/
theorem minus_append_toString_of_pos {v : Int} (h : 0 < v) :
    "-" ++ toString v = toString (-v) := by
  rw [toString_of_nonneg (Int.le_of_lt h), toString_of_neg (by omega), Int.neg_neg]

/-- A minus sign in front of a numeral that is `0` or starts with a minus sign is no numeral. -/
theorem minus_append_toString_ne_of_nonpos {v : Int} (h : v ≤ 0) (w : Int) :
    "-" ++ toString v ≠ toString w := by
  intro heq
  rcases Int.lt_or_le w 0 with hw | hw
  · rw [toString_of_neg hw, String.append_right_inj] at heq
    rcases Int.lt_or_eq_of_le h with hv | rfl
    · -- a negative numeral starts with a minus sign, which no magnitude holds
      apply minus_not_mem_nat_repr (-w).toNat
      rw [← heq, toString_of_neg hv]
      simp
    · have hzero : (0 : Int).toNat = (-w).toNat :=
        Nat.repr_inj.1 (toString_of_nonneg (Int.le_refl 0) ▸ heq)
      omega
  · -- the numeral of a non-negative integer holds no minus sign
    apply minus_not_mem_nat_repr w.toNat
    rw [← toString_of_nonneg hw, ← heq]
    simp

theorem minus_append_toString_eq_iff {v w : Int} :
    "-" ++ toString v = toString w ↔ 0 < v ∧ w = -v := by
  constructor
  · intro heq
    by_cases hv : 0 < v
    · rw [minus_append_toString_of_pos hv, Int.toString_eq_repr, Int.toString_eq_repr,
        Int.repr_inj] at heq
      exact ⟨hv, heq.symm⟩
    · exact absurd heq (minus_append_toString_ne_of_nonpos (by omega) w)
  · rintro ⟨hv, rfl⟩
    exact minus_append_toString_of_pos hv

/-! ## Constant case values -/

/-- The value a constant case value denotes. -/
inductive CaseValue where
  | int (value : Int)
  | str (text : String)
  | char (unit : Nat)
  | bool (b : Bool)
  | null
deriving DecidableEq

/-- A constant case value as it is written: a literal of an integral type, a string, a
character, a boolean or `null`, and an integer literal may stand under a minus sign. -/
inductive CaseConstant where
  | int (negated : Bool) (literal : Int)
  | str (text : String)
  | char (unit : Nat)
  | bool (b : Bool)
  | null
deriving DecidableEq

namespace CaseConstant

def value : CaseConstant → CaseValue
  | int negated v => .int (if negated then -v else v)
  | str s => .str s
  | char u => .char u
  | bool b => .bool b
  | null => .null

/-- A minus sign over a literal that is zero or negative: the written form whose key differs
from that of its value written as one literal. -/
def minusOverNonPositive : CaseConstant → Bool
  | int negated v => negated && decide (v ≤ 0)
  | _ => false

/-- The key of a constant, as the switch check makes it. -/
def key : CaseConstant → String
  | int negated v => "n:" ++ (if negated then "-" else "") ++ toString v
  | str s => "s:" ++ s
  | char u => "c:" ++ toString u
  | bool b => if b then "b:true" else "b:false"
  | null => "null"

end CaseConstant

/-- The constant a literal token denotes, for the kinds a switch compares. -/
def literalConstant? (tok : Token) : Option CaseConstant :=
  match tok.kind, tok.value with
  | .intLit, .number (.int v) | .intLit, .number (.long v) => some (.int false v)
  | .stringLit, _ => some (.str tok.text)
  | .charLit, .char u => some (.char u)
  | .boolLit, .bool b => some (.bool b)
  | .nullLit, _ => some .null
  | _, _ => none

/-- Reads a case value as a constant: a literal, or an integer literal under a minus sign. -/
def caseConstant? : Expr → Option CaseConstant
  | .mk (.literal tok) _ => literalConstant? tok
  | .mk (.unary .neg (.mk (.literal tok) _)) _ =>
    match literalConstant? tok with
    | some (.int _ v) => some (.int true v)
    | _ => none
  | _ => none

theorem caseKey_of_literalConstant {tok : Token} {span : Span} {c : CaseConstant}
    (h : literalConstant? tok = some c) : caseKey (.mk (.literal tok) span) = some c.key := by
  unfold literalConstant? at h
  split at h <;> cases h <;> simp [caseKey, CaseConstant.key, *]

/-- An integer constant is read from an integer literal, of either width. -/
theorem literalConstant_eq_int {tok : Token} {negated : Bool} {v : Int}
    (h : literalConstant? tok = some (.int negated v)) :
    negated = false ∧ tok.kind = .intLit ∧
      (tok.value = .number (.int v) ∨ tok.value = .number (.long v)) := by
  unfold literalConstant? at h
  split at h <;> simp_all

theorem caseKey_of_caseConstant {e : Expr} {c : CaseConstant} (h : caseConstant? e = some c) :
    caseKey e = some c.key := by
  unfold caseConstant? at h
  split at h
  · exact caseKey_of_literalConstant h
  · split at h
    · cases h
      obtain ⟨-, hkind, hvalue | hvalue⟩ := literalConstant_eq_int ‹_›
      all_goals simp [caseKey, CaseConstant.key, hkind, hvalue]
    · cases h
  · cases h

namespace CaseConstant

/-- The two characters a key starts with, which tell the kind of its constant. -/
def tag : CaseConstant → List Char
  | int .. => ['n', ':']
  | str _ => ['s', ':']
  | char _ => ['c', ':']
  | bool _ => ['b', ':']
  | null => ['n', 'u']

theorem key_take_two (c : CaseConstant) : c.key.toList.take 2 = c.tag := by
  cases c with
  | int negated v => cases negated <;> simp [key, tag]
  | bool b => cases b <;> simp [key, tag]
  | _ => simp [key, tag]

/-- Two integer constants: the keys agree when the signs written agree and the literals do, or
when a minus stands over a positive literal and the other literal is its negation. -/
theorem int_key_eq_iff {n₁ n₂ : Bool} {v₁ v₂ : Int} :
    (int n₁ v₁).key = (int n₂ v₂).key ↔
      (int n₁ v₁).value = (int n₂ v₂).value ∧
        (int n₁ v₁).minusOverNonPositive = (int n₂ v₂).minusOverNonPositive := by
  simp only [key, value, minusOverNonPositive, String.append_assoc, String.append_right_inj,
    CaseValue.int.injEq]
  cases n₁ <;> cases n₂
  case false.false => simp
  case true.true =>
    simp only [↓reduceIte, String.append_right_inj, Int.neg_inj, Bool.true_and,
      Int.toString_eq_repr, Int.repr_inj]
    constructor
    · rintro rfl
      exact ⟨rfl, rfl⟩
    · rintro ⟨rfl, -⟩
      rfl
  case true.false =>
    simp only [↓reduceIte, Bool.false_eq_true, String.empty_append, Bool.true_and,
      Bool.false_and, decide_eq_false_iff_not]
    rw [minus_append_toString_eq_iff]
    omega
  case false.true =>
    simp only [↓reduceIte, String.empty_append, Bool.true_and, Bool.false_and,
      @eq_comm Bool false, Bool.true_eq_false, decide_eq_false_iff_not]
    rw [eq_comm, minus_append_toString_eq_iff]
    omega

/-- Constants of two kinds have keys of two kinds. -/
theorem key_ne_of_tag_ne {c₁ c₂ : CaseConstant} (h : c₁.tag ≠ c₂.tag) : c₁.key ≠ c₂.key :=
  fun hkey => h (by rw [← key_take_two, hkey, key_take_two])

theorem value_ne_of_tag_ne {c₁ c₂ : CaseConstant} (h : c₁.tag ≠ c₂.tag) :
    c₁.value ≠ c₂.value := by
  cases c₁ <;> cases c₂ <;> simp_all [tag, value]

theorem key_eq_iff (c₁ c₂ : CaseConstant) :
    c₁.key = c₂.key ↔ c₁.value = c₂.value ∧ c₁.minusOverNonPositive = c₂.minusOverNonPositive := by
  by_cases htag : c₁.tag = c₂.tag
  · -- one kind: the keys compare what follows the tag
    cases c₁ <;> cases c₂ <;> simp [tag] at htag
    case int.int => exact int_key_eq_iff
    case bool.bool b₁ b₂ => cases b₁ <;> cases b₂ <;> simp [key, value, minusOverNonPositive]
    all_goals simp [key, value, minusOverNonPositive]
  · exact iff_of_false (key_ne_of_tag_ne htag) fun h => value_ne_of_tag_ne htag h.1

end CaseConstant

theorem caseKey_eq_iff {e₁ e₂ : Expr} {c₁ c₂ : CaseConstant}
    (h₁ : caseConstant? e₁ = some c₁) (h₂ : caseConstant? e₂ = some c₂) :
    caseKey e₁ = caseKey e₂ ↔
      c₁.value = c₂.value ∧ c₁.minusOverNonPositive = c₂.minusOverNonPositive := by
  rw [caseKey_of_caseConstant h₁, caseKey_of_caseConstant h₂, Option.some_inj]
  exact CaseConstant.key_eq_iff c₁ c₂

/-- The integer literal `v`, standing anywhere. -/
def intLiteral (v : Int) : Expr :=
  let tok : Token :=
    { kind := .intLit, span := default, lexeme := toString v, value := .number (.int v) }
  .mk (.literal tok) default

/-- A minus sign over `e`. -/
def minusOver (e : Expr) : Expr := .mk (.unary .neg e) default

/-- `5` and `- -5` denote one value and have two keys. -/
theorem minus_minus_five_keyed_apart :
    caseConstant? (intLiteral 5) = some (.int false 5) ∧
      caseConstant? (minusOver (intLiteral (-5))) = some (.int true (-5)) ∧
      (CaseConstant.int false 5).value = (CaseConstant.int true (-5)).value ∧
      caseKey (intLiteral 5) ≠ caseKey (minusOver (intLiteral (-5))) :=
  have h₁ : caseConstant? (intLiteral 5) = some (.int false 5) := rfl
  have h₂ : caseConstant? (minusOver (intLiteral (-5))) = some (.int true (-5)) := rfl
  ⟨h₁, h₂, by decide, fun h => absurd ((caseKey_eq_iff h₁ h₂).1 h).2 (by decide)⟩

end AmLang
