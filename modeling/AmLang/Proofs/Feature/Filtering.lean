import Mathlib.Data.List.Forall2
import AmLang.Feature.Filter
/-!
# What feature filtering removes

A declaration is gated out by the enabled features when one of its gates fails: `#require G`
with `G` disabled, or `#requireNot G` with `G` enabled. Filtering removes exactly the gated-out
declarations that it reaches through kept namespaces, classes and interfaces, keeps the others in
their order, and records each removed declaration, without its members, under the dotted path of
what holds it.

The specification is written apart from the filter: `keptDecls` keeps the declarations that are
not gated out and their kept members, and `removedDecls` lists the removed declarations with the
path that holds each, those of a level before those removed inside the level's kept
declarations. One induction over the declaration tree relates the filter to both; since nothing
`keptDecls` keeps is gated out, a second filtering keeps everything and removes nothing.

## Main results

* `filterList_eq`, `filterMembers_eq` — one level of filtering, and the members of one
  declaration, against the specification.
* `keptDecls_eq_map_filter` — the kept declarations of a level are those not gated out, in order.
* `filterModule_filterModule` — filtering twice with the same features is filtering once.
* `filterModule_removes_gated_out` — the three together for a module.
-/

namespace AmLang.Feature

/-! ## Failing gates -/

/-- The gate `r` fails for the enabled features `F`: `#require G` with `G` disabled, or
`#requireNot G` with `G` enabled. -/
def Fails (F : List String) (r : Requirement) : Prop := decide (r.feature ∈ F) = r.negated

instance (F : List String) : DecidablePred (Fails F) :=
  fun _ => inferInstanceAs (Decidable (_ = _))

/-- A declaration is gated out when one of its gates fails. -/
def GatedOut (F : List String) (d : Decl) : Prop := ∃ r ∈ d.requirements, Fails F r

instance (F : List String) : DecidablePred (GatedOut F) :=
  fun d => inferInstanceAs (Decidable (∃ r ∈ d.requirements, Fails F r))

theorem firstUnmet_eq_find (reqs : List Requirement) (F : List String) :
    firstUnmet reqs F = reqs.find? fun r => decide (Fails F r) := by
  unfold firstUnmet Fails
  congr 1
  funext r
  simp only [List.contains_eq_mem, Bool.beq_eq_decide_eq]
  rfl

theorem gatedOut_iff_firstUnmet {F : List String} {d : Decl} :
    GatedOut F d ↔ (firstUnmet d.requirements F).isSome := by
  rw [firstUnmet_eq_find, List.find?_isSome]
  simp [GatedOut]

/-! ## What filtering keeps and removes -/

mutual

/-- The declarations of `ds` that are not gated out, in order, with the members of kept
namespaces, classes and interfaces kept in the same way. -/
def keptDecls (F : List String) : List Decl → List Decl
  | [] => []
  | d :: ds => if GatedOut F d then keptDecls F ds else keptMembers F d :: keptDecls F ds

/-- A kept declaration, with its members kept as `keptDecls` keeps them. -/
def keptMembers (F : List String) : Decl → Decl
  | .mk (.namespaceDecl p ms) sp ns reqs => .mk (.namespaceDecl p (keptDecls F ms)) sp ns reqs
  | .mk (.classDecl n gs sup ifs ms isAbs isMock) sp ns reqs =>
    .mk (.classDecl n gs sup ifs (keptDecls F ms) isAbs isMock) sp ns reqs
  | .mk (.interfaceDecl n gs ps ms) sp ns reqs =>
    .mk (.interfaceDecl n gs ps (keptDecls F ms)) sp ns reqs
  | .mk (.importDecl p) sp ns reqs => .mk (.importDecl p) sp ns reqs
  | .mk (.field n t e isVal isStatic) sp ns reqs => .mk (.field n t e isVal isStatic) sp ns reqs
  | .mk (.function n gs ps res body flags) sp ns reqs =>
    .mk (.function n gs ps res body flags) sp ns reqs

end

mutual

/-- The declarations removed inside the kept declarations of `ds`, held by the path `q`, each
with the path that holds it. -/
def removedBelow (F : List String) (q : String) : List Decl → List (String × Decl)
  | [] => []
  | d :: ds => (if GatedOut F d then [] else removedIn F q d) ++ removedBelow F q ds

/-- The declarations removed inside `d`, held by the path `q`: the gated-out members of a
namespace, class or interface first, then those removed inside its kept members. -/
def removedIn (F : List String) (q : String) : Decl → List (String × Decl)
  | .mk (.namespaceDecl p ms) _ _ _ =>
    (ms.filter (GatedOut F ·)).map (extendPath q (joinPath p), ·) ++
      removedBelow F (extendPath q (joinPath p)) ms
  | .mk (.classDecl n _ _ _ ms _ _) _ _ _ =>
    (ms.filter (GatedOut F ·)).map (extendPath q n, ·) ++ removedBelow F (extendPath q n) ms
  | .mk (.interfaceDecl n _ _ ms) _ _ _ =>
    (ms.filter (GatedOut F ·)).map (extendPath q n, ·) ++ removedBelow F (extendPath q n) ms
  | .mk (.importDecl _) _ _ _ => []
  | .mk (.field ..) _ _ _ => []
  | .mk (.function ..) _ _ _ => []

end

/-- The declarations filtering removes from `ds`, held by the path `q`, each with the path that
holds it: the gated-out ones of this level first, then those removed inside the kept ones. -/
def removedDecls (F : List String) (q : String) (ds : List Decl) : List (String × Decl) :=
  (ds.filter (GatedOut F ·)).map (q, ·) ++ removedBelow F q ds

/-- `e` records the removal from `file` of the declaration `held.2`, held by the path `held.1`:
its name, its name qualified by that path, the line of its name, and its first gate that
fails. -/
structure Records (F : List String) (file : String) (e : Exclusion) (held : String × Decl) :
    Prop where
  name : e.name = held.2.name
  qualifiedName : e.qualifiedName = extendPath held.1 held.2.name
  file : e.file = file
  line : e.line = held.2.nameSpan.start.line
  gate : ∃ r, held.2.requirements.find? (fun r => decide (Fails F r)) = some r ∧
    e.feature = r.feature ∧ e.negated = r.negated

theorem records_exclusionOf {F : List String} {file q : String} {d : Decl} {r : Requirement}
    (h : firstUnmet d.requirements F = some r) :
    Records F file (exclusionOf file q d r) (q, d) :=
  ⟨rfl, rfl, rfl, rfl, ⟨r, firstUnmet_eq_find _ _ ▸ h, rfl, rfl⟩⟩

section

variable (F : List String) (file : String)

mutual

/-- One level of filtering keeps `keptDecls`, removes the gated-out declarations of the level
and records them, and records below what filtering removes inside the kept ones. -/
theorem filterList_eq (q : String) : ∀ ds : List Decl,
    (filterList F file q ds).1 = keptDecls F ds ∧
      List.Forall₂ (Records F file) (filterList F file q ds).2.1
        ((ds.filter (GatedOut F ·)).map (q, ·)) ∧
      List.Forall₂ (Records F file) (filterList F file q ds).2.2 (removedBelow F q ds)
  | [] => by simp [filterList, keptDecls, removedBelow]
  | d :: ds => by
    obtain ⟨hkept, hhere, hbelow⟩ := filterList_eq q ds
    rw [filterList]
    generalize filterList F file q ds = rest at hkept hhere hbelow
    obtain ⟨kept, here, below⟩ := rest
    dsimp only at hkept hhere hbelow
    cases hu : firstUnmet d.requirements F with
    | some r =>
      have hg : GatedOut F d := gatedOut_iff_firstUnmet.2 (by rw [hu]; rfl)
      simp only [keptDecls, removedBelow, hg, if_true, List.filter_cons, decide_true,
        List.map_cons, List.nil_append]
      exact ⟨hkept, .cons (records_exclusionOf hu) hhere, hbelow⟩
    | none =>
      have hg : ¬GatedOut F d := fun h => by
        have hsome := gatedOut_iff_firstUnmet.1 h
        simp [hu] at hsome
      obtain ⟨hmem, hin⟩ := filterMembers_eq q d
      generalize filterMembers F file q d = fd at hmem hin
      obtain ⟨d', ex⟩ := fd
      dsimp only at hmem hin
      simp only [keptDecls, removedBelow, hg, if_false, List.filter_cons, decide_false]
      exact ⟨by simp [hkept, ← hmem], hhere, List.rel_append hin hbelow⟩

/-- Filtering the members of a declaration keeps `keptMembers` and records what `removedIn`
removes. -/
theorem filterMembers_eq (q : String) : ∀ d : Decl,
    (filterMembers F file q d).1 = keptMembers F d ∧
      List.Forall₂ (Records F file) (filterMembers F file q d).2 (removedIn F q d)
  | .mk (.namespaceDecl p ms) sp ns reqs => by
    obtain ⟨hkept, hhere, hbelow⟩ := filterList_eq (extendPath q (joinPath p)) ms
    rw [filterMembers]
    generalize filterList F file (extendPath q (joinPath p)) ms = rest at hkept hhere hbelow
    obtain ⟨kept, here, below⟩ := rest
    dsimp only at hkept hhere hbelow
    exact ⟨by simp [keptMembers, ← hkept], List.rel_append hhere hbelow⟩
  | .mk (.classDecl n gs sup ifs ms isAbs isMock) sp ns reqs => by
    obtain ⟨hkept, hhere, hbelow⟩ := filterList_eq (extendPath q n) ms
    rw [filterMembers]
    generalize filterList F file (extendPath q n) ms = rest at hkept hhere hbelow
    obtain ⟨kept, here, below⟩ := rest
    dsimp only at hkept hhere hbelow
    exact ⟨by simp [keptMembers, ← hkept], List.rel_append hhere hbelow⟩
  | .mk (.interfaceDecl n gs ps ms) sp ns reqs => by
    obtain ⟨hkept, hhere, hbelow⟩ := filterList_eq (extendPath q n) ms
    rw [filterMembers]
    generalize filterList F file (extendPath q n) ms = rest at hkept hhere hbelow
    obtain ⟨kept, here, below⟩ := rest
    dsimp only at hkept hhere hbelow
    exact ⟨by simp [keptMembers, ← hkept], List.rel_append hhere hbelow⟩
  | .mk (.importDecl _) _ _ _ => ⟨rfl, .nil⟩
  | .mk (.field ..) _ _ _ => ⟨rfl, .nil⟩
  | .mk (.function ..) _ _ _ => ⟨rfl, .nil⟩

end

end

/-! ## A second filtering -/

section

variable (F : List String)

theorem requirements_keptMembers (d : Decl) : (keptMembers F d).requirements = d.requirements := by
  obtain ⟨kind, sp, ns, reqs⟩ := d
  cases kind <;> rfl

theorem gatedOut_keptMembers {d : Decl} : GatedOut F (keptMembers F d) ↔ GatedOut F d := by
  simp only [GatedOut, requirements_keptMembers]

/-- Filtering keeps the declarations that are not gated out, in their order. -/
theorem keptDecls_eq_map_filter (ds : List Decl) :
    keptDecls F ds = (ds.filter fun d => ¬GatedOut F d).map (keptMembers F) := by
  induction ds with
  | nil => rfl
  | cons d ds ih => by_cases hg : GatedOut F d <;> simp [keptDecls, hg, ih]

theorem not_gatedOut_of_mem_keptDecls {ds : List Decl} {d : Decl} (h : d ∈ keptDecls F ds) :
    ¬GatedOut F d := by
  rw [keptDecls_eq_map_filter, List.mem_map] at h
  obtain ⟨d₀, hd₀, rfl⟩ := h
  rw [gatedOut_keptMembers]
  simpa using (List.mem_filter.1 hd₀).2

theorem filter_gatedOut_keptDecls (ds : List Decl) :
    (keptDecls F ds).filter (GatedOut F ·) = [] :=
  List.filter_eq_nil_iff.2 fun _ hd => by simpa using not_gatedOut_of_mem_keptDecls F hd

-- nothing kept is gated out, so keeping again changes nothing, at every depth
mutual

theorem keptDecls_keptDecls : ∀ ds : List Decl, keptDecls F (keptDecls F ds) = keptDecls F ds
  | [] => rfl
  | d :: ds => by
    by_cases hg : GatedOut F d
    · simp only [keptDecls, hg, if_true, keptDecls_keptDecls ds]
    · simp only [keptDecls, hg, if_false, gatedOut_keptMembers, keptMembers_keptMembers d,
        keptDecls_keptDecls ds]

theorem keptMembers_keptMembers : ∀ d : Decl, keptMembers F (keptMembers F d) = keptMembers F d
  | .mk (.namespaceDecl _ ms) _ _ _ => by simp only [keptMembers, keptDecls_keptDecls ms]
  | .mk (.classDecl _ _ _ _ ms _ _) _ _ _ => by simp only [keptMembers, keptDecls_keptDecls ms]
  | .mk (.interfaceDecl _ _ _ ms) _ _ _ => by simp only [keptMembers, keptDecls_keptDecls ms]
  | .mk (.importDecl _) _ _ _ => rfl
  | .mk (.field ..) _ _ _ => rfl
  | .mk (.function ..) _ _ _ => rfl

end

mutual

theorem removedBelow_keptDecls (q : String) :
    ∀ ds : List Decl, removedBelow F q (keptDecls F ds) = []
  | [] => rfl
  | d :: ds => by
    by_cases hg : GatedOut F d
    · simp only [keptDecls, hg, if_true, removedBelow_keptDecls q ds]
    · simp only [keptDecls, hg, if_false, removedBelow, gatedOut_keptMembers,
        removedIn_keptMembers q d, removedBelow_keptDecls q ds, List.append_nil]

theorem removedIn_keptMembers (q : String) : ∀ d : Decl, removedIn F q (keptMembers F d) = []
  | .mk (.namespaceDecl _ ms) _ _ _ => by
    simp only [keptMembers, removedIn, filter_gatedOut_keptDecls, removedBelow_keptDecls _ ms,
      List.map_nil, List.append_nil]
  | .mk (.classDecl _ _ _ _ ms _ _) _ _ _ => by
    simp only [keptMembers, removedIn, filter_gatedOut_keptDecls, removedBelow_keptDecls _ ms,
      List.map_nil, List.append_nil]
  | .mk (.interfaceDecl _ _ _ ms) _ _ _ => by
    simp only [keptMembers, removedIn, filter_gatedOut_keptDecls, removedBelow_keptDecls _ ms,
      List.map_nil, List.append_nil]
  | .mk (.importDecl _) _ _ _ => rfl
  | .mk (.field ..) _ _ _ => rfl
  | .mk (.function ..) _ _ _ => rfl

end

theorem removedDecls_keptDecls (q : String) (ds : List Decl) :
    removedDecls F q (keptDecls F ds) = [] := by
  simp only [removedDecls, filter_gatedOut_keptDecls, removedBelow_keptDecls, List.map_nil,
    List.append_nil]

end

/-! ## Filtering a module -/

/-- A module keeps `keptDecls` of its declarations and records `removedDecls` of them, held by
the root namespace. -/
theorem filterModule_eq (F : List String) (m : Module) :
    (filterModule F m).1 = ⟨m.file, keptDecls F m.decls⟩ ∧
      List.Forall₂ (Records F m.file) (filterModule F m).2 (removedDecls F "" m.decls) := by
  obtain ⟨hkept, hhere, hbelow⟩ := filterList_eq F m.file "" m.decls
  unfold filterModule filterDecls
  generalize filterList F m.file "" m.decls = res at hkept hhere hbelow
  obtain ⟨kept, here, below⟩ := res
  dsimp only at hkept hhere hbelow ⊢
  exact ⟨by rw [hkept], List.rel_append hhere hbelow⟩

/-- Filtering twice with the same features is filtering once: the second filtering keeps every
declaration and removes none. -/
theorem filterModule_filterModule (F : List String) (m : Module) :
    filterModule F (filterModule F m).1 = ((filterModule F m).1, []) := by
  obtain ⟨hmod, -⟩ := filterModule_eq F m
  obtain ⟨hmod', hex'⟩ := filterModule_eq F (filterModule F m).1
  rw [hmod] at hmod' hex' ⊢
  dsimp only at hmod' hex'
  rw [keptDecls_keptDecls] at hmod'
  rw [removedDecls_keptDecls] at hex'
  exact Prod.ext hmod' (List.forall₂_nil_right_iff.1 hex')

/-- Feature filtering removes from a module exactly the gated-out declarations reached through
kept namespaces, classes and interfaces, and keeps the rest in order; it records each removed
declaration, not its members, with its name qualified by the path that holds it; and filtering
the result again with the same features removes nothing and changes nothing. -/
theorem filterModule_removes_gated_out (F : List String) (m : Module) :
    (filterModule F m).1 =
        ⟨m.file, (m.decls.filter fun d => ¬GatedOut F d).map (keptMembers F)⟩ ∧
      List.Forall₂ (Records F m.file) (filterModule F m).2 (removedDecls F "" m.decls) ∧
      filterModule F (filterModule F m).1 = ((filterModule F m).1, []) := by
  obtain ⟨hmod, hex⟩ := filterModule_eq F m
  exact ⟨by rw [hmod, keptDecls_eq_map_filter], hex, filterModule_filterModule F m⟩

end AmLang.Feature
