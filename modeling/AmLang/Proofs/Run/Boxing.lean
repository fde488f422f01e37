import AmLang.Run.Eval
import AmLang.Proofs.Emit.CIntegers
/-!
# Boxes and what unboxing gives back

A primitive converted to a reference type is boxed, and a reference converted to a primitive
type is unboxed; casts and implicit conversions both go through `RunM.coerce`. A box keeps the
family of its primitive and the value as the family holds it: every signed integral type is held
as a 64-bit signed integer, every unsigned one as a 64-bit unsigned integer, and `Bool` and
`Char` each have a family of their own. Unboxing checks the family alone: a box of another
family is a cast exception, and a box of the same family is converted to the target type the
way C converts integers, reducing modulo `2 ^ width` into its range.

So for the integral types, `Bool` and `Char`, a value boxed and unboxed again comes back as
itself in its own type and in every type of its family that holds it, and reduced into the range
of a narrower type of its family without an exception: an `Int` of `300` unboxed as a `Byte` is
`44` (`int_300_unboxes_as_byte_44`). A null reference unboxed into a nullable type is null.

## Main results

* `Prim.wrap_widest` — a value in the range of an integral type is in the range of the 64-bit
  type of its signedness, which is how its family holds it.
* `RunM.coerce_box`, `RunM.coerce_unbox` — what boxing and unboxing do.
* `RunM.unbox_box` — boxing a value of an integral type, `Bool` or `Char` and unboxing it into
  another such type: an exception exactly when the families differ, otherwise C's conversion,
  which keeps every value the target type holds.
-/

namespace AmLang

/-- Primitive types compare as they are equal. -/
instance : LawfulBEq Prim where
  eq_of_beq {a b} h := by cases a <;> cases b <;> first | rfl | exact absurd h (by decide)
  rfl {a} := by cases a <;> rfl

/-- Box families compare as they are equal. -/
instance : LawfulBEq BoxKind where
  eq_of_beq {a b} h := by cases a <;> cases b <;> first | rfl | exact absurd h (by decide)
  rfl {a} := by cases a <;> rfl

namespace Prim

/-- The integral types, `Bool` and `Char`: the primitive types whose values a box holds
exactly. -/
def Discrete (k : Prim) : Prop := k.isIntegral = true ∨ k = .bool ∨ k = .char

theorem exists_cInt {k : Prim} (hk : k.isIntegral = true) : ∃ t : CInt, t.prim = k := by
  cases k <;> simp [isIntegral, index] at hk
  exacts [⟨.i8, rfl⟩, ⟨.i16, rfl⟩, ⟨.i32, rfl⟩, ⟨.i64, rfl⟩, ⟨.u8, rfl⟩, ⟨.u16, rfl⟩,
    ⟨.u32, rfl⟩, ⟨.u64, rfl⟩]

/-- The widest C type of a signedness holds every value of that signedness. -/
theorem CInt.inRange_widest {t : CInt} {x : Int} (h : t.InRange x) :
    (if t.signed then CInt.i64 else CInt.u64).InRange x := by
  cases t <;>
    simp only [CInt.InRange, CInt.signed, CInt.half, CInt.modulus, CInt.width, if_true,
      Bool.false_eq_true, if_false] at h ⊢ <;> omega

/-- A value in the range of an integral type is in the range of the 64-bit type of the same
signedness. -/
theorem wrap_widest {k : Prim} (hk : k.isIntegral = true) {x : Int} (h : k.wrap x = x) :
    Prim.wrap (if k.isSigned then .long else .ulong) x = x := by
  obtain ⟨t, rfl⟩ := exists_cInt hk
  have hx : t.InRange x := by
    have := t.convert_mem x
    rwa [CInt.convert_eq_wrap, h] at this
  have hprim : (if t.prim.isSigned then Prim.long else .ulong) =
      (if t.signed then CInt.i64 else CInt.u64).prim := by
    rw [CInt.prim_isSigned]
    split <;> rfl
  rw [hprim, ← CInt.convert_eq_wrap]
  exact CInt.convert_of_mem (CInt.inRange_widest hx)

theorem boxKind_of_isSigned {k : Prim} (hk : k.isSigned = true) : k.boxKind = .int := by
  simp [boxKind, hk]

theorem isSigned_of_boxKind {k : Prim} (hk : k.boxKind = .int) : k.isSigned = true := by
  cases k <;> first | rfl | (revert hk; decide)

theorem isUnsigned_of_boxKind {k : Prim} (hk : k.boxKind = .uint) : k.isUnsigned = true := by
  cases k <;> first | rfl | (revert hk; decide)

end Prim

namespace Value

/-- `v` is a value of primitive type `k`, an integral type, `Bool` or `Char`: an integer in the
range of `k`, or a boolean. -/
def Fits (k : Prim) : Value → Prop
  | .int x => (k.isIntegral = true ∨ k = .char) ∧ k.wrap x = x
  | .bool _ => k = .bool
  | _ => False

/-- C's conversion of an integer of type `a` to an integral type or `Char`: reduction into the
range of `b`. -/
theorem convert_int {a b : Prim} (hb : b.isIntegral = true ∨ b = .char) {x : Int}
    (ha : a.wrap x = x) : (Value.int x).convert a b = .int (b.wrap x) := by
  unfold convert
  split
  · rename_i hab
    rw [beq_iff_eq] at hab
    rw [← hab, ha]
  · rcases hb with hb | rfl
    · cases b <;> simp_all [Prim.isIntegral, Prim.index, toInt]
    · simp [toInt]

/-- In one family, C's conversion gives a value of the target type, and keeps every value the
target type holds. -/
theorem convert_family {k k' : Prim} (hk' : k'.Discrete) (hfam : k.boxKind = k'.boxKind)
    {v : Value} (hv : v.Fits k) :
    (v.convert k k').Fits k' ∧ (v.Fits k' → v.convert k k' = v) := by
  cases v with
  | int x =>
    have hk : k'.isIntegral = true ∨ k' = .char := by
      rcases hk' with hi | rfl | hc
      · exact .inl hi
      · -- a `Bool` target is the family of `Bool` alone, and `k` holds an integer
        exfalso
        rcases hv.1 with hi | rfl
        · obtain ⟨t, rfl⟩ := Prim.exists_cInt hi
          cases t <;> revert hfam <;> decide
        · revert hfam
          decide
      · exact .inr hc
    rw [convert_int hk hv.2]
    refine ⟨⟨hk, ?_⟩, fun h => by rw [h.2]⟩
    -- reducing twice into the range of `k'` is reducing once
    obtain hi | rfl := hk
    · obtain ⟨t, rfl⟩ := Prim.exists_cInt hi
      rw [← CInt.convert_eq_wrap, ← CInt.convert_eq_wrap]
      exact CInt.convert_of_mem (t.convert_mem x)
    · simp only [Prim.wrap, Prim.isSigned, Prim.index]
      simp [Int.emod_emod_of_dvd]
  | bool b =>
    have hk : k = .bool := hv
    subst hk
    have hk'b : k' = .bool := by
      cases k' <;> simp_all [Prim.boxKind, Prim.isSigned, Prim.isUnsigned, Prim.isFloating,
        Prim.index]
    subst hk'b
    simp [convert, Fits]
  | _ => exact hv.elim

/-- The box of a value of an integral type, `Bool` or `Char` is of the type's family, and
unboxing it into a type of the same family is C's conversion. -/
theorem box_of_fits {k k' : Prim} (hk' : k'.Discrete) {v : Value} (hv : v.Fits k) :
    ∃ p, Value.box k v = .boxed k.boxKind p ∧
      (k.boxKind = k'.boxKind → Value.unboxed k' k.boxKind p = v.convert k k') := by
  cases v with
  | int x =>
    obtain ⟨hk, hx⟩ := hv
    rcases hk with hi | rfl
    · -- an integral type's family holds the value as a 64-bit integer of its signedness
      have hw := Prim.wrap_widest hi hx
      cases hs : k.isSigned
      · have hu : k.isUnsigned = true := by
          cases k <;> simp_all [Prim.isIntegral, Prim.isSigned, Prim.isUnsigned, Prim.index]
        have hb : k.boxKind = .uint := by simp [Prim.boxKind, hs, hu]
        refine ⟨.int x, ?_, fun hfam => ?_⟩
        · simp only [box, hb, toInt]
          simp only [hs, Bool.false_eq_true, if_false] at hw
          rw [hw]
        · have hk'u := Prim.isUnsigned_of_boxKind (hfam ▸ hb)
          have hk'i : k'.isIntegral = true := by
            cases k' <;> simp_all [Prim.isUnsigned, Prim.isIntegral, Prim.index]
          simp only [hb, unboxed]
          rw [convert_int (.inl hk'i) (by simpa [hs] using hw), convert_int (.inl hk'i) hx]
      · have hb : k.boxKind = .int := Prim.boxKind_of_isSigned hs
        refine ⟨.int x, ?_, fun hfam => ?_⟩
        · simp only [box, hb, toInt]
          simp only [hs, if_true] at hw
          rw [hw]
        · have hk's := Prim.isSigned_of_boxKind (hfam ▸ hb)
          have hk'i : k'.isIntegral = true := by
            cases k' <;> simp_all [Prim.isSigned, Prim.isIntegral, Prim.index]
          simp only [hb, unboxed]
          rw [convert_int (.inl hk'i) (by simpa [hs] using hw), convert_int (.inl hk'i) hx]
    · refine ⟨.int x, rfl, fun hfam => ?_⟩
      have hk'c : k' = .char := by
        rcases hk' with hi | rfl | rfl
        · cases k' <;> simp_all [Prim.boxKind, Prim.isSigned, Prim.isUnsigned, Prim.isFloating,
            Prim.isIntegral, Prim.index]
        · simp [Prim.boxKind, Prim.isSigned, Prim.isUnsigned, Prim.isFloating, Prim.index] at hfam
        · rfl
      subst hk'c
      rfl
  | bool b =>
    have hk : k = .bool := hv
    subst hk
    refine ⟨.bool b, rfl, fun hfam => ?_⟩
    have hk'b : k' = .bool := by
      cases k' <;> simp_all [Prim.boxKind, Prim.isSigned, Prim.isUnsigned, Prim.isFloating,
        Prim.index]
    subst hk'b
    rfl
  | _ => exact hv.elim

end Value

namespace RunM

variable {c : ClassId} {args : List Ty} {b : Bool}

/-- A primitive converted to a class type is boxed. -/
theorem coerce_box (k : Prim) (v : Value) :
    coerce v (.prim k false) (.obj c args b) = pure (Value.box k v) := by
  simp [coerce, Ty.equal, Ty.equalShape, Ty.isUnit, Ty.isPrim, Ty.prim?, Ty.isNever, Ty.isNull,
    box]

/-- A box converted to a primitive type other than `Unit` is unboxed: the family decides. -/
theorem coerce_unbox {k : Prim} (hk : k ≠ .unit) (n : Bool) (fam : BoxKind) (p : Value) :
    coerce (.boxed fam p) (.obj c args b) (.prim k n) =
      if fam = k.boxKind then pure (Value.unboxed k fam p)
      else throwMessage "cannot unbox a different type" := by
  simp [coerce, Ty.equal, Ty.equalShape, Ty.isUnit, Ty.isPrim, Ty.prim?, Ty.isNever, Ty.isNull,
    unbox, hk]

/-- A null reference converted to a nullable primitive type is null. -/
theorem coerce_null_unbox {k : Prim} (hk : k ≠ .unit) :
    coerce .null (.obj c args b) (.prim k true) = pure .null := by
  simp [coerce, Ty.equal, Ty.equalShape, Ty.isUnit, Ty.isPrim, Ty.prim?, Ty.isNever, Ty.isNull,
    unbox, Ty.nullable, hk]

/-- A value of an integral type, `Bool` or `Char`, boxed to a class type and then converted to an
integral type, `Bool` or `Char`, nullable or not: a cast exception when the two types are boxed
in different families, otherwise C's conversion, which gives a value of the target type and
gives back the value itself whenever the target type holds it (in particular in its own type).
A null reference converted to the nullable type is null. -/
theorem unbox_box {k k' : Prim} (hk' : k'.Discrete) {v : Value} (hv : v.Fits k) (n : Bool) :
    (do let o ← coerce v (.prim k false) (.obj c args b); coerce o (.obj c args b) (.prim k' n)) =
        (if k.boxKind = k'.boxKind then pure (v.convert k k')
          else throwMessage "cannot unbox a different type") ∧
      (k.boxKind = k'.boxKind → (v.convert k k').Fits k' ∧ (v.Fits k' → v.convert k k' = v)) ∧
      coerce .null (.obj c args b) (.prim k' true) = pure .null := by
  have hunit : k' ≠ .unit := by
    rintro rfl
    rcases hk' with h | h | h <;> simp [Prim.isIntegral, Prim.index] at h
  obtain ⟨p, hbox, hunboxed⟩ := Value.box_of_fits hk' hv
  refine ⟨?_, (Value.convert_family hk' · hv), coerce_null_unbox hunit⟩
  rw [coerce_box, pure_bind, hbox, coerce_unbox hunit]
  split
  · rename_i hfam
    rw [hunboxed hfam]
  · rfl

/-- A `Byte` of `-5` boxed and unboxed as an `Int` is `-5`. -/
theorem byte_unboxes_as_int :
    Prim.Discrete .int ∧ (Value.int (-5)).Fits .byte ∧
      (do let o ← coerce (.int (-5)) (.prim .byte false) (SymbolTable.objectType false)
          coerce o (SymbolTable.objectType false) (.prim .int false)) = pure (.int (-5)) := by
  have hv : (Value.int (-5)).Fits .byte := ⟨.inl rfl, by decide⟩
  refine ⟨.inl rfl, hv, ?_⟩
  simp only [SymbolTable.objectType]
  rw [(unbox_box (.inl rfl) hv false).1,
    if_pos (show Prim.boxKind .byte = Prim.boxKind .int from rfl)]
  rfl

/-- An `Int` of `300` boxed and unboxed as a `Byte` is `44`, with no exception. -/
theorem int_300_unboxes_as_byte_44 :
    (Value.int 300).Fits .int ∧
      (do let o ← coerce (.int 300) (.prim .int false) (SymbolTable.objectType false)
          coerce o (SymbolTable.objectType false) (.prim .byte false)) = pure (.int 44) := by
  refine ⟨⟨.inl rfl, by decide⟩, ?_⟩
  simp only [SymbolTable.objectType]
  rw [coerce_box, pure_bind, show Value.box .int (.int 300) = .boxed .int (.int 300) from rfl,
    coerce_unbox (by decide),
    if_pos (show BoxKind.int = Prim.boxKind .byte from rfl)]
  rfl

end RunM

end AmLang
