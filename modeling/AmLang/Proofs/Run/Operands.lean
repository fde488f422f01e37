import AmLang.Proofs.Run.Returns
/-!
# Operands read without effects

The C of an operand is a pure expression, evaluated by the statement that uses it, or a
temporary that statements before it filled. So an operand is evaluated in two parts
(`evalOperand`): its statements, run where it stands, and a read, made where it is used, after
the statements of the operands to its right. Only the statements run left to right.

This module proves that the split is clean: every read an operand leaves for its use only reads
the machine. Run from any machine, however it ends, it leaves the machine as it found it
(`RunM.ReadsOnly`). Calls, allocations, strings, boxing, checked conversions and thrown
exceptions all sit in the statements. The reads are names, fields, statics, array elements,
and the in-place arithmetic, comparisons, tests and conversions made on them.

## Main results

* `RunM.ReadsOnly` and its rules: `pure`, `throw`, `bind`, reads of the machine.
* `OperandsRead n` — what the operand functions at fuel `n` leave only reads, one field per
  function; `OperandsRead.succ` is the step, one lemma per function.
* `operand_read_preserves_machine` — every read an operand leaves preserves the machine.
-/

namespace AmLang

namespace RunM

open MonadAttach

variable {α β : Type}

/-- A computation that only reads the machine: run from any machine, whatever it returns and
however it stops, it leaves the machine as it found it. -/
def ReadsOnly (x : RunM α) : Prop := ∀ m, (x.run.run m).2 = m

namespace ReadsOnly

theorem pure' (a : α) : ReadsOnly (pure a : RunM α) := fun _ => rfl

theorem throw' (e : Stop) : ReadsOnly (throw e : RunM α) := fun _ => rfl

/-- Two reads in a row read only. -/
theorem bind' {x : RunM α} {f : α → RunM β} (hx : ReadsOnly x) (hf : ∀ a, ReadsOnly (f a)) :
    ReadsOnly (x >>= f) := by
  intro m
  have h := hx m
  simp only [ExceptT.run_bind, StateT.run_bind]
  rcases hr : x.run.run m with ⟨r, m'⟩
  rw [hr] at h
  cases h
  cases r with
  | ok a => exact hf a _
  | error e => rfl

/-- A computation that looks at the machine and then only reads. -/
theorem get_bind {f : Machine → RunM α} (hf : ∀ m, ReadsOnly (f m)) : ReadsOnly (get >>= f) :=
  fun m => hf m m

theorem mapM {xs : List (RunM α)} (h : ∀ x ∈ xs, ReadsOnly x) : ReadsOnly (xs.mapM id) := by
  induction xs with
  | nil => exact pure' _
  | cons x xs ih =>
    rw [List.mapM_cons]
    exact bind' (h x (by simp)) fun a =>
      bind' (ih fun y hy => h y (by simp [hy])) fun _ => pure' _

end ReadsOnly

/-! ## Reads of the machine -/

theorem getLocal_reads (x : LocalId) : ReadsOnly (getLocal x) := fun _ => rfl

theorem global_reads (f : FieldId) : ReadsOnly (global f) := fun _ => rfl

theorem ty_reads (t : Ty) : ReadsOnly (ty t) := fun _ => rfl

theorem typeOf_reads (e : TypedExpr) : ReadsOnly (typeOf e) := fun _ => rfl

theorem table_reads : ReadsOnly table := fun _ => rfl

theorem layout_reads : ReadsOnly layout := fun _ => rfl

theorem env_reads : ReadsOnly env := fun _ => rfl

theorem localType_reads (x : LocalId) : ReadsOnly (localType x) := fun _ => rfl

theorem cell?_reads (a : Nat) : ReadsOnly (cell? a) := fun _ => rfl

theorem crash_reads (signal : Nat) : ReadsOnly (crash signal : RunM α) := fun _ => rfl

theorem self_reads : ReadsOnly self := by
  refine ReadsOnly.get_bind fun m => ?_
  split
  · exact .pure' _
  · exact crash_reads _

theorem readField_reads (obj : Value) (f : FieldId) : ReadsOnly (readField obj f) := by
  unfold readField
  split
  · refine ReadsOnly.bind' (cell?_reads _) fun c => ?_
    split
    · exact .pure' _
    · exact crash_reads _
  · exact crash_reads _

theorem isStorage_reads (f : FieldId) : ReadsOnly (isStorage f) :=
  ReadsOnly.bind' table_reads fun _ => .pure' _

theorem ownField_reads (f : FieldId) : ReadsOnly (ownField f) := by
  refine ReadsOnly.bind' (isStorage_reads f) fun storage => ?_
  split
  · exact global_reads f
  · exact ReadsOnly.bind' self_reads fun obj => readField_reads obj f

theorem readPlace_reads (p : Place) : ReadsOnly (readPlace p) := by
  cases p with
  | «local» x => exact getLocal_reads x
  | global f => exact global_reads f
  | field obj f => exact readField_reads obj f
  | element a i =>
    refine ReadsOnly.bind' (cell?_reads a) fun c => ?_
    split
    · exact .pure' _
    · exact crash_reads _

theorem elementSlot_reads (array : Value) (index : Int) : ReadsOnly (elementSlot array index) := by
  unfold elementSlot
  split
  · exact .pure' _
  · exact crash_reads _

theorem classOf_reads (v : Value) : ReadsOnly (classOf v) := by
  unfold classOf
  split
  · exact .pure' _
  · exact .pure' _
  · refine ReadsOnly.bind' (cell?_reads _) fun c => ?_
    split <;> exact .pure' _
  · exact .pure' _

theorem instanceOf_reads (v : Value) (target : String) : ReadsOnly (instanceOf v target) := by
  unfold instanceOf
  split
  · exact .pure' _
  · exact ReadsOnly.bind' layout_reads fun l =>
      ReadsOnly.bind' (classOf_reads v) fun _ => .pure' _

theorem memberRead_reads (info : ExprInfo) (object : Value) :
    ReadsOnly (memberRead info object) := by
  unfold memberRead
  split
  · split
    · refine ReadsOnly.bind' (cell?_reads _) fun c => ?_
      split
      · exact .pure' _
      · exact crash_reads _
    · exact crash_reads _
  · split
    · exact readField_reads _ _
    · exact .pure' _

theorem typeTest_reads (target : Ty) (v : Value) : ReadsOnly (typeTest target v) := by
  unfold typeTest
  split
  · split
    · refine ReadsOnly.bind' (cell?_reads _) fun c => ?_
      split <;> exact .pure' _
    · exact .pure' _
  · split
    · exact .pure' _
    · exact ReadsOnly.bind' layout_reads fun l =>
        ReadsOnly.bind' (instanceOf_reads _ _) fun _ => .pure' _

theorem evalLiteral_reads (e : TypedExpr) (tok : Token) : ReadsOnly (evalLiteral e tok) :=
  ReadsOnly.bind' (typeOf_reads e) fun _ => by
    dsimp only
    split <;> exact .pure' _

/-- A conversion made in place reads only: boxing and unboxing are statements. -/
theorem coerce_reads {source target : Ty} (h : convertsInPlace source target = true)
    (v : Value) : ReadsOnly (coerce v source target) := by
  unfold coerce
  split
  · exact .pure' _
  split
  · exact .pure' _
  split
  · split
    · exact .pure' _
    · exact .pure' _
  · exact .pure' _
  · -- unboxing is never in place
    exfalso
    cases source <;> simp_all [convertsInPlace]
  · exact .pure' _

/-- Two reads combined by a function read only. -/
theorem ReadsOnly.map₂ {γ : Type} {x : RunM α} {y : RunM β} (hx : ReadsOnly x) (hy : ReadsOnly y)
    (f : α → β → γ) : ReadsOnly (x >>= fun a => y >>= fun b => pure (f a b)) :=
  ReadsOnly.bind' hx fun _ => ReadsOnly.bind' hy fun _ => .pure' _

/-! ## What operands leave -/

/-- The runtime's errors return nothing: they throw a new exception. -/
theorem not_canReturn_throwMessage (msg : String) (a : α) :
    ¬ CanReturn (throwMessage msg : RunM α) a := by
  intro h
  unfold throwMessage at h
  obtain ⟨_, -, h⟩ := LawfulMonadAttach.canReturn_bind_imp' h
  obtain ⟨_, -, h⟩ := LawfulMonadAttach.canReturn_bind_imp' h
  dsimp only at h
  -- the message is stored when the class has its field; the exception is thrown either way
  split at h
  · obtain ⟨_, -, h⟩ := LawfulMonadAttach.canReturn_bind_imp' h
    exact not_canReturn_throw _ _ h
  · exact not_canReturn_throw _ _ h

/-- A method of `Object` on a primitive that is not nullable computes its answer from its
receiver and argument alone: the C expression of `equals` and `hashCode`, and the text of
`toString`. -/
theorem primitiveMethod_reads {receiverType : Ty} (href : receiverType.isReference = false)
    (hnullable : receiverType.isNullablePrimitive = false) (n : Nat) (f : FunctionId)
    (value : Value) (args : List Value) :
    ReadsOnly (primitiveMethod n f value receiverType args) := by
  cases n with
  | zero =>
    rw [primitiveMethod]
    exact .throw' _
  | succ n =>
    rw [primitiveMethod]
    refine ReadsOnly.bind' table_reads fun t => ?_
    simp only [href, hnullable, Bool.false_eq_true, ↓reduceIte]
    split
    · exact .pure' _
    · split <;> exact .pure' _

/-- Every read `x` can leave only reads the machine. -/
def LeavesReads (x : RunM (RunM α)) : Prop := ∀ r, CanReturn x r → ReadsOnly r

/-- Every read in every list `x` can leave only reads the machine. -/
def LeavesAllReads (x : RunM (List (RunM α))) : Prop :=
  ∀ rs, CanReturn x rs → ∀ r ∈ rs, ReadsOnly r

namespace LeavesReads

theorem pure {r : RunM α} (h : ReadsOnly r) : LeavesReads (Pure.pure r) := fun _ hr =>
  eq_of_canReturn_pure hr ▸ h

theorem throw' (e : Stop) : LeavesReads (throw e : RunM (RunM α)) := fun _ hr =>
  absurd hr (not_canReturn_throw e _)

theorem bind_of {x : RunM β} {f : β → RunM (RunM α)} (hf : ∀ b, CanReturn x b → LeavesReads (f b)) :
    LeavesReads (x >>= f) := fun r hr => by
  obtain ⟨b, hb, hr⟩ := LawfulMonadAttach.canReturn_bind_imp' hr
  exact hf b hb r hr

theorem bind {x : RunM β} {f : β → RunM (RunM α)} (hf : ∀ b, LeavesReads (f b)) :
    LeavesReads (x >>= f) :=
  bind_of fun b _ => hf b

/-- A value computed at once leaves the trivial read of it. -/
theorem value (x : RunM β) (f : β → α) :
    LeavesReads (x >>= fun v => Pure.pure (Pure.pure (f v))) :=
  bind fun _ => pure (.pure' _)

theorem of_throwMessage (msg : String) : LeavesReads (RunM.throwMessage msg : RunM (RunM α)) :=
  fun _ h => absurd h (not_canReturn_throwMessage msg _)

/-- A read turned into a value by a function stays a read. -/
theorem map_read {x : RunM (RunM β)} (hx : LeavesReads x) (f : β → α) :
    LeavesReads (x >>= fun read => Pure.pure (read >>= fun v => Pure.pure (f v))) :=
  bind_of fun read hread => pure (ReadsOnly.bind' (hx read hread) fun _ => .pure' _)

theorem map_pure (x : RunM α) : LeavesReads ((Pure.pure : α → RunM α) <$> x) := by
  rw [map_eq_pure_bind]
  exact value x id

end LeavesReads

/-- A read converted in place stays a read; a conversion that is a statement leaves the value. -/
theorem coerceOperand_leavesReads {read : RunM Value} (h : ReadsOnly read) (source target : Ty) :
    LeavesReads (coerceOperand read source target) := by
  unfold coerceOperand
  split
  · rename_i hin
    exact .pure (ReadsOnly.bind' h fun v => coerce_reads hin v)
  · exact .bind fun _ => .value _ _

/-- In-place arithmetic reads its operands; the divisor check is a statement. -/
theorem arithmeticOperand_leavesReads {left right : RunM Value} (hl : ReadsOnly left)
    (hr : ReadsOnly right) (op : BinaryOp) (t : Ty) :
    LeavesReads (arithmeticOperand op t left right) := by
  unfold arithmeticOperand
  dsimp only
  split
  · exact .pure (ReadsOnly.bind' hl fun _ => ReadsOnly.bind' hr fun _ => .pure' _)
  · refine .bind fun divisor => ?_
    split
    · exact .bind fun _ => .pure (ReadsOnly.bind' hl fun _ => .pure' _)
    · exact .pure (ReadsOnly.bind' hl fun _ => .pure' _)

end RunM

open RunM MonadAttach

/-- What the operand functions leave at fuel `n` only reads the machine: the read of each
operand, of each list of operands, of each case test, and the slot of each array access. -/
structure OperandsRead (n : Nat) : Prop where
  operand : ∀ e, LeavesReads (evalOperand n e)
  operandAs : ∀ e t, LeavesReads (evalOperandAs n e t)
  operands : ∀ es ts, LeavesAllReads (evalOperands n es ts)
  receiver : ∀ obj, LeavesReads (evalReceiver n obj)
  member : ∀ e obj, LeavesReads (evalMember n e obj)
  element : ∀ obj idx, LeavesReads (evalElement n obj idx)
  binary : ∀ e op l r, LeavesReads (evalBinary n e op l r)
  logical : ∀ op l r, LeavesReads (evalLogical n op l r)
  equality : ∀ op l r, LeavesReads (evalEquality n op l r)
  call : ∀ e callee args, LeavesReads (evalCall n e callee args)
  instanceCall : ∀ kind f object receiverType fnArgs sig args, ReadsOnly object →
    LeavesReads (callInstance n kind f object receiverType fnArgs sig args)
  cast : ∀ e operand, LeavesReads (evalCast n e operand)
  typeTest : ∀ e operand, LeavesReads (evalTypeTest n e operand)
  caseTest : ∀ subj st v, LeavesReads (matchesCase n subj st v)

/-- Out of fuel, every operand function stops and leaves nothing. -/
theorem OperandsRead.zero : OperandsRead 0 where
  operand _ := by rw [evalOperand]; exact .throw' _
  operandAs _ _ := by rw [evalOperandAs]; exact .throw' _
  operands _ _ _ h := by rw [evalOperands] at h; exact absurd h (not_canReturn_throw _ _)
  receiver _ := by rw [evalReceiver]; exact .throw' _
  member _ _ := by rw [evalMember]; exact .throw' _
  element _ _ := by rw [evalElement]; exact .throw' _
  binary _ _ _ _ := by rw [evalBinary]; exact .throw' _
  logical _ _ _ := by rw [evalLogical]; exact .throw' _
  equality _ _ _ := by rw [evalEquality]; exact .throw' _
  call _ _ _ := by unfold evalCall; exact .throw' _
  instanceCall _ _ _ _ _ _ _ _ := by rw [callInstance]; exact .throw' _
  cast _ _ := by rw [evalCast]; exact .throw' _
  typeTest _ _ := by rw [evalTypeTest]; exact .throw' _
  caseTest _ _ _ := by rw [matchesCase]; exact .throw' _

namespace OperandsRead

variable {n : Nat} (ih : OperandsRead n)
include ih

theorem operand_succ (e : TypedExpr) : LeavesReads (evalOperand (n + 1) e) := by
  obtain ⟨k, sp, info⟩ := e
  unfold evalOperand
  -- one case per form of expression: the forms that are statements leave their value
  cases k <;> dsimp only
  case literal tok => exact .pure (evalLiteral_reads _ tok)
  case ident =>
    split
    · exact .pure (getLocal_reads _)
    · split
      · exact .pure (ownField_reads _)
      · exact .pure (.pure' _)
  case thisRef => exact .pure self_reads
  case superRef => exact .pure self_reads
  case unary op operand =>
    refine .bind fun t => .bind_of fun read hread => .pure ?_
    exact ReadsOnly.bind' (ih.operandAs operand t read hread) fun v => by
      split <;> exact .pure' _
  case binary op l r => exact ih.binary _ op l r
  case call callee args => exact ih.call _ callee args
  case member obj _ _ => exact ih.member _ obj
  case index obj idx =>
    exact .bind_of fun slot hslot =>
      .pure (ReadsOnly.bind' (ih.element obj idx slot hslot) readPlace_reads)
  case cast operand => exact ih.cast _ operand
  case typeTest operand => exact ih.typeTest _ operand
  case unchecked => exact .pure (.pure' _)
  all_goals exact .map_pure _

theorem operandAs_succ (e : TypedExpr) (t : Ty) : LeavesReads (evalOperandAs (n + 1) e t) := by
  unfold evalOperandAs
  exact .bind_of fun read hread => .bind fun source =>
    coerceOperand_leavesReads (ih.operand e read hread) source t

theorem operands_succ (es : List TypedExpr) (ts : List Ty) :
    LeavesAllReads (evalOperands (n + 1) es ts) := by
  intro rs h
  match es, ts with
  | [], _ =>
    rw [evalOperands, eq_of_canReturn_pure h] at *
    simp
  | _ :: _, [] =>
    rw [evalOperands] at h
    · rw [eq_of_canReturn_pure h]
      simp
    · simp
  | a :: as, p :: ps =>
    rw [evalOperands] at h
    obtain ⟨read, hread, h⟩ := LawfulMonadAttach.canReturn_bind_imp' h
    obtain ⟨reads, hreads, h⟩ := LawfulMonadAttach.canReturn_bind_imp' h
    rw [eq_of_canReturn_pure h]
    intro r hr
    rcases List.mem_cons.1 hr with rfl | hr
    · exact ih.operandAs a p r hread
    · exact ih.operands as ps reads hreads r hr

theorem receiver_succ (obj : TypedExpr) : LeavesReads (evalReceiver (n + 1) obj) := by
  unfold evalReceiver
  split
  · exact .pure self_reads
  · exact .pure self_reads
  · exact ih.operand obj

theorem member_succ (e obj : TypedExpr) : LeavesReads (evalMember (n + 1) e obj) := by
  unfold evalMember
  refine .bind fun t => ?_
  dsimp only
  split
  · exact .pure (global_reads _)
  refine .bind_of fun object hobject => .bind fun receiver => ?_
  split
  · exact .pure (ReadsOnly.bind' (ih.receiver obj object hobject) (memberRead_reads _))
  -- through `?.` the member is read into a temporary at once
  refine .bind fun resultType => .bind fun o => ?_
  split
  · exact .pure (.pure' _)
  · exact .bind fun _ => .bind fun _ => .value _ _

theorem element_succ (obj idx : TypedExpr) : LeavesReads (evalElement (n + 1) obj idx) := by
  unfold evalElement
  refine .bind_of fun array harray => .bind_of fun index hindex => .bind fun indexType => ?_
  dsimp only
  -- the array and the index are read again where the element is used
  have position : ReadsOnly (do
      pure (Prim.wrap .long ((← index).toInt (indexType.prim?.getD .int))) : RunM Int) :=
    ReadsOnly.bind' (ih.operand idx index hindex) fun _ => .pure' _
  refine .bind fun _ => .bind fun _ => .bind fun _ => .pure ?_
  exact ReadsOnly.bind' (ih.operand obj array harray) fun a =>
    ReadsOnly.bind' position fun i => elementSlot_reads a i

theorem logical_succ (op : BinaryOp) (l r : TypedExpr) :
    LeavesReads (evalLogical (n + 1) op l r) := by
  unfold evalLogical
  refine .bind_of fun left hleft => .bind fun quiet => ?_
  split
  · refine .bind_of fun right hright => .pure ?_
    refine ReadsOnly.bind' (ih.operandAs l _ left hleft) fun a => ?_
    split
    · exact .pure' _
    · exact ih.operandAs r _ right hright
  · refine .bind fun a => ?_
    split
    · exact .pure (.pure' _)
    · exact .value _ _

theorem binary_succ (e : TypedExpr) (op : BinaryOp) (l r : TypedExpr) :
    LeavesReads (evalBinary (n + 1) e op l r) := by
  unfold evalBinary
  dsimp only
  split
  case h_1 | h_2 => exact ih.logical _ l r
  case h_3 | h_4 => exact ih.equality _ l r
  case h_5 | h_6 | h_7 | h_8 =>
    refine .bind fun lt => .bind fun rt => .bind_of fun left hleft => .bind_of fun right hright => ?_
    exact .pure (.map₂ (ih.operandAs l _ left hleft) (ih.operandAs r _ right hright) _)
  case h_9 =>
    split
    · exact .value _ _
    · refine .bind fun t => .bind_of fun left hleft => .bind_of fun right hright => ?_
      exact arithmeticOperand_leavesReads (ih.operandAs l t left hleft)
        (ih.operandAs r t right hright) _ _

theorem equality_succ (op : BinaryOp) (l r : TypedExpr) :
    LeavesReads (evalEquality (n + 1) op l r) := by
  unfold evalEquality
  refine .bind fun lt => .bind fun rt => ?_
  dsimp only
  split
  · exact .pure (.pure' _)
  split
  · -- a null test reads the other side, or a nullable primitive local
    split
    · refine .bind fun nt => ?_
      split
      · exact (LeavesReads.pure (getLocal_reads _)).map_read _
      · exact (ih.operand _).map_read _
    · exact (ih.operand _).map_read _
  split
  · split
    all_goals
      refine .bind_of fun left hleft => .bind_of fun right hright => ?_
      exact .pure (.map₂ (ih.operandAs l _ left hleft) (ih.operandAs r _ right hright) _)
  · refine .bind_of fun left hleft => .bind_of fun right hright => ?_
    split
    · exact .pure (.map₂ (ih.operandAs l _ left hleft) (ih.operandAs r _ right hright) _)
    -- `equals` of other references is called at once
    · exact .bind fun _ => .bind fun _ => .value _ _

theorem instanceCall_succ (kind : CallKind) (f : FunctionId) {object : RunM Value}
    (hobject : ReadsOnly object) (receiverType : Ty) (fnArgs : List Ty) (sig : CSignature)
    (args : List TypedExpr) :
    LeavesReads (callInstance (n + 1) kind f object receiverType fnArgs sig args) := by
  unfold callInstance
  refine .bind_of fun reads hreads => .bind fun l => ?_
  dsimp only
  split
  · -- `equals` and `hashCode` of a primitive are made where they are used
    rename_i hin
    simp only [CallKind.inPlace, Bool.and_eq_true, Bool.or_eq_true,
      Bool.not_eq_true'] at hin
    obtain ⟨⟨⟨hkind, href⟩, hnullable⟩, -⟩ := hin
    refine .pure (ReadsOnly.bind' hobject fun value =>
      ReadsOnly.bind' (ReadsOnly.mapM (ih.operands args sig.params reads hreads)) fun values => ?_)
    -- only a dispatch as a primitive method is made in place
    cases kind
    case primitive | generic => exact primitiveMethod_reads href hnullable n f value values
    all_goals exact absurd hkind (by decide)
  · exact .value _ _

theorem call_succ (e callee : TypedExpr) (args : List TypedExpr) :
    LeavesReads (evalCall (n + 1) e callee args) := by
  unfold evalCall
  dsimp only
  split
  · exact .value _ _
  split
  · refine .bind fun l => .bind fun receiver => .bind fun fnArgs => .bind fun resultType => ?_
    split
    case h_1 =>
      -- `super(…)`
      refine .bind fun values => ?_
      split
      · exact .pure (.pure' _)
      · exact .bind fun _ => .bind fun _ => .pure (.pure' _)
    case h_2 | h_3 =>
      refine .bind fun values => .bind fun r => ?_
      split
      · exact .pure (.pure' _)
      · exact .map_pure _
    case h_4 =>
      refine .bind_of fun object hobject => ?_
      have hobj : ReadsOnly object := by
        split at hobject
        · exact ih.receiver _ object hobject
        · exact eq_of_canReturn_pure hobject ▸ self_reads
      split
      · refine .bind_of fun call hcall => ?_
        split
        · exact .pure (.pure' _)
        · exact coerceOperand_leavesReads (ih.instanceCall _ _ _ _ _ _ _ hobj call hcall) _ _
      -- through `?.` the receiver is tested and the call made at once
      · refine .bind fun o => ?_
        split
        · exact .pure (.pure' _)
        · refine .bind fun call => .bind fun r => ?_
          split
          · exact .pure (.pure' _)
          · exact .map_pure _
  · exact .pure (.pure' _)

theorem cast_succ (e operand : TypedExpr) : LeavesReads (evalCast (n + 1) e operand) := by
  unfold evalCast
  refine .bind fun target => .bind fun source => .bind_of fun read hread => ?_
  have hr := ih.operand operand read hread
  dsimp only
  split
  · exact .pure (.pure' _)
  split
  · exact coerceOperand_leavesReads hr _ _
  refine .bind fun classes => ?_
  split
  · exact .pure hr
  -- a checked downcast runs at once
  refine .bind fun v => ?_
  split
  · split
    · exact .pure (.pure' _)
    · exact .bind_of fun _ h => absurd h (not_canReturn_throwMessage _ _)
  · refine .bind fun l => .bind fun found => ?_
    split
    · exact .pure (.pure' _)
    · exact .bind fun _ => .of_throwMessage _

theorem typeTest_succ (e operand : TypedExpr) : LeavesReads (evalTypeTest (n + 1) e operand) := by
  unfold evalTypeTest
  refine .bind fun target => .bind fun source => .bind_of fun read hread => ?_
  dsimp only
  split
  · exact .pure (.pure' _)
  split
  · -- a primitive is boxed at once
    exact .bind fun _ => .value _ _
  · exact .pure (ReadsOnly.bind' (ih.operand operand read hread) (typeTest_reads _))

theorem caseTest_succ (subj : Value) (st : Ty) (v : TypedExpr) :
    LeavesReads (matchesCase (n + 1) subj st v) := by
  unfold matchesCase
  refine .bind fun valueType => ?_
  dsimp only
  split
  · exact .pure (.pure' _)
  split
  · split
    all_goals exact .bind fun left => (ih.operandAs v _).map_read _
  · refine .bind_of fun right hright => ?_
    split
    · exact .pure (ReadsOnly.bind' (ih.operandAs v _ right hright) fun _ => .pure' _)
    -- `equals` of other references is called at once
    · exact .bind fun _ => .bind fun _ => .value _ _

/-- The step: what the operand functions leave at fuel `n + 1` only reads, as it does at `n`. -/
theorem succ : OperandsRead (n + 1) where
  operand := ih.operand_succ
  operandAs := ih.operandAs_succ
  operands := ih.operands_succ
  receiver := ih.receiver_succ
  member := ih.member_succ
  element := ih.element_succ
  binary := ih.binary_succ
  logical := ih.logical_succ
  equality := ih.equality_succ
  call := ih.call_succ
  instanceCall kind f _ receiverType fnArgs sig args hobject :=
    ih.instanceCall_succ kind f hobject receiverType fnArgs sig args
  cast := ih.cast_succ
  typeTest := ih.typeTest_succ
  caseTest := ih.caseTest_succ

end OperandsRead

/-- At every fuel, what the operand functions leave only reads the machine. -/
theorem operandsRead : ∀ n, OperandsRead n
  | 0 => .zero
  | n + 1 => (operandsRead n).succ

/-- The read an operand leaves for its use changes nothing: run from any machine, whatever it
reads and however it ends, it leaves the machine as it found it. Everything an operand does to
the machine (its calls, allocations, checks and thrown exceptions) happens in its statements,
which run where the operand stands, left to right. The read is made where the operand is used,
after the statements of the operands to its right, and sees the machine as they left it. -/
theorem operand_read_preserves_machine {n : Nat} {e : TypedExpr} {read : RunM Value}
    (h : CanReturn (evalOperand n e) read) (m : Machine) : (read.run.run m).2 = m :=
  (operandsRead n).operand e read h m

/-- `count`, a field of `this` named without a receiver, leaves the read of the field, and that
read changes nothing. -/
theorem field_read_preserves_machine :
    let count : TypedExpr :=
      .mk (.ident "count") default { type := .prim .int false, field := some 0 }
    let m : Machine := { layout := default, steps := 0 }
    CanReturn (evalOperand 1 count) (ownField 0) ∧ ((ownField 0).run.run m).2 = m := by
  intro count m
  have h : CanReturn (evalOperand 1 count) (ownField 0) := by
    unfold evalOperand
    exact RunM.canReturn_iff_run.2 ⟨m, m, rfl⟩
  exact ⟨h, operand_read_preserves_machine h m⟩

end AmLang
