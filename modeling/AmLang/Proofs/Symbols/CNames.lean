import AmLang.Proofs.Symbols.Steps
/-!
# C names of classes

A class declared as `name` in namespace `ns` gets the C name `am_` followed by its qualified name
`ns.name` with every `.` read as `_` (`cIdentifier`). Two classes are told apart by their
qualified names, but the C name forgets where the dots were: class `B` of namespace `A` and
class `A_B` at the top level are both declared, under different qualified names, and both get
the C name `am_A_B`.

## Main results

* `cIdentifier_dot_eq_underscore` — a dot and an underscore give the same C identifier.
* `keeps_declareMembers_names` — declaring members renames no class and touches no index.
* `declareClass_adds` — declaring a class under free names adds one class, with its C name.
* `nested_and_flat_classes_share_cName` — `ns.name` and `ns_name` get one C name.
-/

namespace AmLang

/-- A C identifier reads a dot as an underscore, so the two spellings meet. -/
theorem cIdentifier_dot_eq_underscore (a b : String) :
    cIdentifier (a ++ "." ++ b) = cIdentifier (a ++ "_" ++ b) := by
  apply String.toList_injective
  simp [cIdentifier, String.toList_map]

namespace SymbolTable

open TableM

/-! ## What declaring members leaves alone -/

/-- Two tables with the same classes as far as names go: as many classes, the same qualified
and C names, the same class index and the same namespaces. -/
structure SameNames (t t' : SymbolTable) : Prop where
  size : t'.classes.size = t.classes.size
  names : ∀ c,
    (t'.cls c).qualifiedName = (t.cls c).qualifiedName ∧ (t'.cls c).cName = (t.cls c).cName
  classIndex : t'.classIndex = t.classIndex
  namespaces : t'.namespaces = t.namespaces

namespace SameNames

theorem refl (t : SymbolTable) : SameNames t t := ⟨rfl, fun _ => ⟨rfl, rfl⟩, rfl, rfl⟩

theorem trans {t t' t'' : SymbolTable} (h : SameNames t t') (h' : SameNames t' t'') :
    SameNames t t'' where
  size := h'.size.trans h.size
  names c := ⟨(h'.names c).1.trans (h.names c).1, (h'.names c).2.trans (h.names c).2⟩
  classIndex := h'.classIndex.trans h.classIndex
  namespaces := h'.namespaces.trans h.namespaces

theorem of_steps {t t' : SymbolTable} (h : Relation.ReflTransGen SameNames t t') :
    SameNames t t' := by
  induction h with
  | refl => exact refl t
  | tail _ hstep ih => exact ih.trans hstep

/-- Changing a class in a way that keeps its names keeps the names of every class. -/
theorem modifyClass (t : SymbolTable) (c : ClassId) {g : ClassSymbol → ClassSymbol}
    (hg : ∀ k, (g k).qualifiedName = k.qualifiedName ∧ (g k).cName = k.cName) :
    SameNames t (t.modifyClass c g) where
  size := classes_size_modifyClass c g
  names d := by
    rw [cls_modifyClass]
    split
    · exact hg _
    · exact ⟨rfl, rfl⟩
  classIndex := rfl
  namespaces := rfl

theorem addField (t : SymbolTable) (fd : FieldSymbol) : SameNames t (t.addField fd).2 :=
  ⟨rfl, fun _ => ⟨rfl, rfl⟩, rfl, rfl⟩

theorem addFunction (t : SymbolTable) (fs : FunctionSymbol) : SameNames t (t.addFunction fs).2 :=
  ⟨rfl, fun _ => ⟨rfl, rfl⟩, rfl, rfl⟩

end SameNames

/-- Declaring the members of a class adds fields and functions and files them in their class;
no class is renamed and neither the class index nor a namespace changes. -/
theorem keeps_declareMembers_names (unit : Nat) (c : ClassId) (path : List Nat)
    (members : List Decl) : Keeps SameNames (declareMembers unit c path members) := by
  unfold declareMembers
  refine keeps_forIn _ _ fun m _ _ => ?_
  dsimp only
  split
  · -- a field is added and listed
    refine keeps_bind keeps_table fun _ => keeps_ite
      (keeps_bind (keeps_report _) fun _ => keeps_pure _) ?_
    refine keeps_bind (keeps_addField fun t => SameNames.addField t _) fun _ => keeps_bind
      (keeps_modifyTable fun t => SameNames.modifyClass t c fun k => ?_) fun _ => keeps_pure _
    split <;> exact ⟨rfl, rfl⟩
  · -- a constructor or a method is added and filed
    refine keeps_bind keeps_table fun _ => keeps_ite ?_ ?_ <;>
      exact keeps_addFunction_bind (fun t => (SameNames.addFunction t _).trans
        (SameNames.modifyClass _ c fun _ => ⟨rfl, rfl⟩)) fun _ => keeps_pure _
  · exact keeps_pure _

/-! ## Declaring one class -/

theorem classIndex_modifyNamespace (t : SymbolTable) (n : String)
    (f : NamespaceSymbol → NamespaceSymbol) :
    (t.modifyNamespace n f).classIndex = t.classIndex := by
  unfold modifyNamespace ensureNamespace
  split <;> rfl

/-- Changing one namespace leaves every other as it was. -/
theorem findNamespace?_modifyNamespace_of_ne (t : SymbolTable) {n m : String} (h : n ≠ m)
    (f : NamespaceSymbol → NamespaceSymbol) :
    (t.modifyNamespace n f).findNamespace? m = t.findNamespace? m := by
  have hcmp : compare n m ≠ .eq := fun h' => h (Std.LawfulEqCmp.compare_eq_iff_eq.1 h')
  unfold modifyNamespace ensureNamespace findNamespace?
  split <;> simp [Std.TreeMap.getElem?_modify, Std.TreeMap.getElem?_insert, hcmp]

/-- `t'` is `t` with one more class, named `qualified` in namespace `ns`, with the C name `am_`
and the qualified name read by `cIdentifier`, and indexed under its qualified name; the other
classes keep their names, and the other namespaces are as they were. -/
structure AddsClass (t t' : SymbolTable) (ns qualified : String) : Prop where
  size : t'.classes.size = t.classes.size + 1
  names : ∀ c < t.classes.size,
    (t'.cls c).qualifiedName = (t.cls c).qualifiedName ∧ (t'.cls c).cName = (t.cls c).cName
  qualifiedName : (t'.cls t.classes.size).qualifiedName = qualified
  cName : (t'.cls t.classes.size).cName = "am_" ++ cIdentifier qualified
  classIndex : t'.classIndex = t.classIndex.insert qualified t.classes.size
  namespaces : ∀ m, ns ≠ m → t'.findNamespace? m = t.findNamespace? m

namespace AddsClass

variable {t t' t'' : SymbolTable} {ns qualified : String}

/-- Adding a class and registering it under its names adds it. -/
theorem register {k : ClassSymbol} (hq : k.qualifiedName = qualified)
    (hc : k.cName = "am_" ++ cIdentifier qualified) (hns : k.ns = ns) :
    AddsClass t ((t.addClass k).2.registerClass t.classes.size) ns qualified := by
  have hcls : ∀ c,
      ((t.addClass k).2.registerClass t.classes.size).cls c = (t.addClass k).2.cls c :=
    fun c => by simp only [cls, classes_registerClass]
  have hnew : (t.addClass k).2.cls t.classes.size = k := by simp [cls_addClass]
  refine ⟨by simp [addClass], fun c hc => ?_, by rw [hcls, hnew, hq], by rw [hcls, hnew, hc],
    ?_, fun m hm => ?_⟩
  · rw [hcls, cls_addClass, if_neg (Nat.ne_of_lt hc)]
    exact ⟨rfl, rfl⟩
  · simp only [registerClass, classIndex_modifyNamespace, hnew, hq]
    rfl
  · simp only [registerClass, hnew, hns]
    exact findNamespace?_modifyNamespace_of_ne _ hm _

/-- Declaring members after the class keeps what the class's addition did. -/
theorem sameNames (h : AddsClass t t' ns qualified) (h' : SameNames t' t'') :
    AddsClass t t'' ns qualified where
  size := h'.size.trans h.size
  names c hc := ⟨(h'.names c).1.trans (h.names c hc).1, (h'.names c).2.trans (h.names c hc).2⟩
  qualifiedName := (h'.names _).1.trans h.qualifiedName
  cName := (h'.names _).2.trans h.cName
  classIndex := h'.classIndex.trans h.classIndex
  namespaces m hm := by
    rw [← h.namespaces m hm]
    exact congrArg (·.get? m) h'.namespaces

end AddsClass

/-- **Declaring a class under free names adds it with its C name.** When no class has its
qualified name and no variable of its namespace its simple name, the class is added as the next
one, with the C name made from its qualified name, whatever its members are. -/
theorem declareClass_adds {unit : Nat} {ns : String} {path : List Nat} {d : Decl}
    {w : TableWork} (hfree : w.table.findClass? (extendPath ns d.name) = none)
    (hglob : w.table.findGlobal? ns d.name = none) :
    Post (declareClass unit ns path d)
      (fun _ w' => AddsClass w.table w'.table ns (extendPath ns d.name)) w := by
  unfold declareClass
  simp only [post_bind, post_table, hfree, hglob, post_addClass, post_modifyTable]
  -- the three kinds of declaration make the same names; only the members differ
  split
  all_goals
    refine ((keeps_declareMembers_names _ _ _ _).post _).mono fun _ w' h => ?_
    exact (AddsClass.register rfl rfl rfl).sameNames (SameNames.of_steps h)

/-- A class added to a table where another name was free leaves that name free. -/
theorem AddsClass.findClass?_of_ne {t t' : SymbolTable} {ns qualified other : String}
    (h : AddsClass t t' ns qualified) (hne : qualified ≠ other) :
    t'.findClass? other = t.findClass? other := by
  have hcmp : compare qualified other ≠ .eq := fun h' =>
    hne (Std.LawfulEqCmp.compare_eq_iff_eq.1 h')
  simp [findClass?, h.classIndex, Std.TreeMap.getElem?_insert, hcmp]

/-- **Two classes, one C name.** In a table where neither name is taken, declaring class `name`
in namespace `ns` and then class `ns_name` at the top level adds two classes with different
qualified names, `ns.name` and `ns_name`, and the same C name. -/
theorem nested_and_flat_classes_share_cName {unit : Nat} {ns : String} {path path' : List Nat}
    {d d' : Decl} {w : TableWork} (hns : ns ≠ "") (hd' : d'.name = ns ++ "_" ++ d.name)
    (hfree : w.table.findClass? (ns ++ "." ++ d.name) = none)
    (hglob : w.table.findGlobal? ns d.name = none)
    (hfree' : w.table.findClass? (ns ++ "_" ++ d.name) = none)
    (hglob' : w.table.findGlobal? "" (ns ++ "_" ++ d.name) = none) :
    Post (declareClass unit ns path d >>= fun _ => declareClass unit "" path' d')
      (fun _ w' =>
        (w'.table.cls w.table.classes.size).qualifiedName = ns ++ "." ++ d.name ∧
        (w'.table.cls (w.table.classes.size + 1)).qualifiedName = ns ++ "_" ++ d.name ∧
        (w'.table.cls w.table.classes.size).cName =
          (w'.table.cls (w.table.classes.size + 1)).cName) w := by
  have hpath : extendPath ns d.name = ns ++ "." ++ d.name := by simp [extendPath, hns]
  have hpath' : extendPath "" d'.name = ns ++ "_" ++ d.name := by simp [extendPath, hd']
  have hne : ns ++ "." ++ d.name ≠ ns ++ "_" ++ d.name := fun h => by
    simpa using congrArg String.toList h
  rw [post_bind]
  refine (declareClass_adds (hpath ▸ hfree) hglob).mono fun _ w₁ h₁ => ?_
  rw [hpath] at h₁
  -- the first class took neither the second's qualified name nor a top-level name
  have hfree₁ : w₁.table.findClass? (extendPath "" d'.name) = none := by
    rw [hpath', h₁.findClass?_of_ne hne, hfree']
  have hglob₁ : w₁.table.findGlobal? "" d'.name = none := by
    rw [findGlobal?, h₁.namespaces "" hns, hd']
    exact hglob'
  refine (declareClass_adds hfree₁ hglob₁).mono fun _ w₂ h₂ => ?_
  rw [hpath'] at h₂
  -- the second class is the next one; the first keeps its names
  obtain ⟨hq, hc⟩ := h₂.names w.table.classes.size (by rw [h₁.size]; omega)
  have hq₂ := h₂.qualifiedName
  have hc₂ := h₂.cName
  rw [h₁.size] at hq₂ hc₂
  refine ⟨hq.trans h₁.qualifiedName, hq₂, ?_⟩
  rw [hc, h₁.cName, hc₂, cIdentifier_dot_eq_underscore]

/-- A class declaration with no members, named `name`. -/
def emptyClass (name : String) : Decl := .mk (.classDecl name [] none [] [] false false) {} {} []

/-- Where the declarations of every program start: the built-in table. -/
def newProgram : TableWork := { table := builtins }

/-- Class `B` of namespace `A` and class `A_B`, declared one after the other in a new program,
are two classes, `A.B` and `A_B`, with one C name. -/
theorem namespaced_and_flat_class_collide :
    Post (declareClass 0 "A" [0] (emptyClass "B") >>= fun _ =>
        declareClass 0 "" [1] (emptyClass "A_B"))
      (fun _ w' =>
        (w'.table.cls newProgram.table.classes.size).qualifiedName =
          "A" ++ "." ++ (emptyClass "B").name ∧
        (w'.table.cls (newProgram.table.classes.size + 1)).qualifiedName =
          "A" ++ "_" ++ (emptyClass "B").name ∧
        (w'.table.cls newProgram.table.classes.size).cName =
          (w'.table.cls (newProgram.table.classes.size + 1)).cName)
      newProgram :=
  nested_and_flat_classes_share_cName (by decide) (by decide) (by decide +kernel)
    (by decide +kernel) (by decide +kernel) (by decide +kernel)

end SymbolTable

end AmLang
