import AmLang.Proofs.Types.SuperChain
import AmLang.Proofs.Dispatch.Resolution
import AmLang.Check.Members
/-!
# Which methods a receiver reaches

`SymbolTable.methodCandidates` walks from the receiver's class through superclasses and
interfaces breadth first, visiting each class once (`SymbolTable.classWalk`), and lists, class
by class, each method of the name asked for seen from the receiver
(`SymbolTable.candidateFrom`), unless one already listed has equal parameter types
(`SymbolTable.addCandidate`). The search is this fold over the walk (`gatherMethods_eq`), and the
walk visits exactly the classes the receiver's class reaches, each once: its step budget covers
every class and its direct supertypes (`mem_classWalk_of_reaches`).

So no two candidates have equal parameter types, and every method of a reached class is listed
or hidden by one with equal parameter types found no later in the walk. An override and the
method it overrides are never both listed. The override link was made comparing parameter
types seen from the overriding class, the candidates compare them seen from the receiver; in a
table whose supertypes and members are well formed (`SymbolTable.Linked`) the two views agree,
because both classes lie on the receiver's superclass chain and a class's chain seen from an
instance is the instance's chain (`ClassEnv.substitute_superChain_selfType`). The built-in table
is such a table (`builtins_linked`).

## Main results

* `gatherMethods_eq` — the search is a fold over the walk.
* `mem_classWalk_of_reaches`, `reaches_of_mem_classWalk`, `nodup_classWalk` — the walk visits
  exactly the classes reached, once each.
* `methodCandidates_distinct` — no two candidates have equal parameter types.
* `methodCandidates_listed_or_hidden` — every method of a reached class is listed, or hidden by a
  listed one with equal parameter types from a class visited no later.
* `Linked.override_params_eq`, `Linked.not_override_and_base` — an override and its base look
  alike from every receiver that reaches them, so they are never both listed.
* `methodCandidates_hide_overridden` — the three together.
-/

namespace AmLang

namespace SymbolTable

variable {t : SymbolTable}

theorem getD_env (t : SymbolTable) (c : ClassId) : t.env.getD c default = (t.cls c).toClassHeader := by
  unfold env cls
  rw [Array.getD_eq_getD_getElem?, Array.getD_eq_getD_getElem?, Array.getElem?_map]
  cases t.classes[c]? <;> rfl

theorem size_env (t : SymbolTable) : t.env.size = t.classes.size := Array.size_map ..

/-! ## The walk -/

/-- The classes a method search visits, in order: from the queue `queue`, with the classes
`seen` visited, a class not yet visited is visited and its direct supertypes are queued. -/
def classWalk (t : SymbolTable) : Nat → List ClassId → List ClassId → List ClassId
  | 0, _, _ => []
  | _ + 1, [], _ => []
  | fuel + 1, c :: queue, seen =>
    if seen.contains c then t.classWalk fuel queue seen
    else c :: t.classWalk fuel (queue ++ (t.cls c).parents) (c :: seen)

/-- The search gathers, class by class along the walk, the candidates of each class, and notes
whether a root class was visited. -/
theorem gatherMethods_eq (env : ClassEnv) (receiver : Ty) (name : String) (wantStatic : Bool) :
    ∀ (fuel : Nat) (queue seen : List ClassId) (found : List Candidate) (root : Bool),
      t.gatherMethods env receiver name wantStatic fuel queue seen found root =
        ((t.classWalk fuel queue seen).foldl
            (fun found c => t.classCandidates env receiver name wantStatic c found) found,
          root || (t.classWalk fuel queue seen).any fun c => (t.cls c).isRoot) := by
  intro fuel queue seen found root
  fun_induction t.gatherMethods env receiver name wantStatic fuel queue seen found root with
  | case1 => simp [classWalk]
  | case2 => simp [classWalk]
  | case3 fuel c queue seen found root hc ih =>
    rw [ih, classWalk, if_pos hc]
  | case4 fuel c queue seen found root hc k found' next ih =>
    rw [ih, classWalk, if_neg hc]
    simp only [List.foldl_cons, List.any_cons, ClassSymbol.parents, Bool.or_assoc]
    rfl

/-- A class visited by the walk was not visited before it. -/
theorem not_mem_of_mem_classWalk :
    ∀ (fuel : Nat) (queue seen : List ClassId), ∀ c ∈ t.classWalk fuel queue seen, c ∉ seen := by
  intro fuel queue seen
  fun_induction t.classWalk fuel queue seen with
  | case1 => simp
  | case2 => simp
  | case3 _ _ _ _ _ ih => exact ih
  | case4 _ c _ _ hc ih =>
    intro d hd
    rcases List.mem_cons.1 hd with rfl | hd
    · simpa using hc
    · exact fun hds => ih d hd (List.mem_cons_of_mem _ hds)

/-- The walk visits each class once. -/
theorem nodup_classWalk :
    ∀ (fuel : Nat) (queue seen : List ClassId), (t.classWalk fuel queue seen).Nodup := by
  intro fuel queue seen
  fun_induction t.classWalk fuel queue seen with
  | case1 => exact List.nodup_nil
  | case2 => exact List.nodup_nil
  | case3 _ _ _ _ _ ih => exact ih
  | case4 fuel c _ _ _ ih =>
    apply List.Nodup.cons _ ih
    intro hmem
    exact not_mem_of_mem_classWalk fuel _ _ c hmem List.mem_cons_self

/-- Every class the walk visits is reached from a class of the queue. -/
theorem reaches_of_mem_classWalk :
    ∀ (fuel : Nat) (queue seen : List ClassId), ∀ c ∈ t.classWalk fuel queue seen,
      ∃ q ∈ queue, Relation.ReflTransGen t.Inherits q c := by
  intro fuel queue seen
  fun_induction t.classWalk fuel queue seen with
  | case1 => simp
  | case2 => simp
  | case3 _ d _ _ _ ih =>
    intro c hc
    obtain ⟨q, hq, hqc⟩ := ih c hc
    exact ⟨q, List.mem_cons_of_mem d hq, hqc⟩
  | case4 _ d _ _ _ ih =>
    intro c hc
    rcases List.mem_cons.1 hc with rfl | hc
    · exact ⟨c, List.mem_cons_self, .refl⟩
    obtain ⟨q, hq, hqc⟩ := ih c hc
    rcases List.mem_append.1 hq with hq | hq
    · exact ⟨q, List.mem_cons_of_mem d hq, hqc⟩
    · exact ⟨d, List.mem_cons_self, .head (inherits_iff_mem_parents.2 hq) hqc⟩

/-! ## The walk is complete -/

/-- A class has no more direct supertypes than its share of the step budget. -/
theorem length_parents_le (c : ClassId) : (t.cls c).parents.length ≤ t.env.classWeight c := by
  unfold ClassEnv.classWeight
  by_cases hlt : c < t.env.size
  · rw [if_pos hlt, getD_env]
    simp only [ClassSymbol.parents, List.length_append]
    have hsup : (t.cls c).superId?.toList.length ≤ 1 := by
      cases (t.cls c).superId? <;> simp
    have hifaces := List.length_filterMap_le Ty.classOf? (t.cls c).interfaces
    show _ ≤ 1 + (t.cls c).interfaces.length
    omega
  · rw [size_env] at hlt
    rw [if_neg (by rwa [size_env]), parents_of_size_le (Nat.le_of_not_lt hlt)]
    rfl

theorem mem_cons_or_mem_iff {d q : ClassId} {seen W : List ClassId} :
    d ∈ q :: seen ∨ d ∈ W ↔ d ∈ seen ∨ d ∈ q :: W := by
  simp only [List.mem_cons, or_assoc, or_left_comm]

/-- A class dropped from the queue because it was visited leaves the visited classes closed. -/
theorem closes_of_mem {q : ClassId} {queue seen : List ClassId} (hqs : q ∈ seen)
    (h : ∀ c ∈ seen, ∀ d ∈ (t.cls c).parents, d ∈ seen ∨ d ∈ q :: queue) :
    ∀ c ∈ seen, ∀ d ∈ (t.cls c).parents, d ∈ seen ∨ d ∈ queue := by
  intro c hc d hd
  rcases h c hc d hd with hds | hdq
  · exact .inl hds
  · rcases List.mem_cons.1 hdq with rfl | hdq
    · exact .inl hqs
    · exact .inr hdq

/-- Visiting a class and queueing its direct supertypes keeps the visited classes closed. -/
theorem closes_visit {q : ClassId} {queue seen : List ClassId}
    (h : ∀ c ∈ seen, ∀ d ∈ (t.cls c).parents, d ∈ seen ∨ d ∈ q :: queue) :
    ∀ c ∈ q :: seen, ∀ d ∈ (t.cls c).parents, d ∈ q :: seen ∨ d ∈ queue ++ (t.cls q).parents := by
  intro c hc d hd
  rcases List.mem_cons.1 hc with rfl | hc
  · exact .inr (List.mem_append_right _ hd)
  · rcases h c hc d hd with hds | hdq
    · exact .inl (List.mem_cons_of_mem _ hds)
    · rcases List.mem_cons.1 hdq with rfl | hdq
      · exact .inl List.mem_cons_self
      · exact .inr (List.mem_append_left _ hdq)

/-- **The walk closes the visited classes under direct supertypes.** If every supertype of a
visited class is visited or queued, and the budget covers the queue and the classes not yet
visited, then when the walk ends every class queued was visited, and every supertype of a
visited class too. -/
theorem classWalk_closed :
    ∀ (fuel : Nat) (queue seen : List ClassId),
      (∀ c ∈ seen, ∀ d ∈ (t.cls c).parents, d ∈ seen ∨ d ∈ queue) →
      queue.length + t.env.unvisitedWeight seen ≤ fuel →
      (∀ q ∈ queue, q ∈ seen ∨ q ∈ t.classWalk fuel queue seen) ∧
      ∀ c, (c ∈ seen ∨ c ∈ t.classWalk fuel queue seen) →
        ∀ d ∈ (t.cls c).parents, d ∈ seen ∨ d ∈ t.classWalk fuel queue seen := by
  intro fuel queue seen
  fun_induction t.classWalk fuel queue seen with
  | case1 queue seen =>
    intro hclosed hfuel
    have hq : queue = [] := List.eq_nil_of_length_eq_zero (by omega)
    subst hq
    simp only [List.not_mem_nil, or_false] at hclosed ⊢
    exact ⟨fun _ hq => hq.elim, hclosed⟩
  | case2 _ seen =>
    intro hclosed _
    simp only [List.not_mem_nil, or_false] at hclosed ⊢
    exact ⟨fun _ hq => hq.elim, hclosed⟩
  | case3 fuel q queue seen hq ih =>
    intro hclosed hfuel
    have hqs : q ∈ seen := by simpa using hq
    obtain ⟨hqueue, hclose⟩ := ih (closes_of_mem hqs hclosed) (by simp at hfuel; omega)
    refine ⟨fun r hr => ?_, hclose⟩
    rcases List.mem_cons.1 hr with rfl | hr
    · exact .inl hqs
    · exact hqueue r hr
  | case4 fuel q queue seen hq ih =>
    intro hclosed hfuel
    have hqs : q ∉ seen := by simpa using hq
    have hw := @ClassEnv.unvisitedWeight_cons t.env _ _ hqs
    have hp := length_parents_le (t := t) q
    obtain ⟨hqueue, hclose⟩ := ih (closes_visit hclosed)
      (by simp only [List.length_cons, List.length_append] at hfuel ⊢; omega)
    refine ⟨fun r hr => ?_, fun c hc d hd => ?_⟩
    · rcases List.mem_cons.1 hr with rfl | hr
      · exact .inr List.mem_cons_self
      · exact mem_cons_or_mem_iff.1 (hqueue r (List.mem_append_left _ hr))
    · exact mem_cons_or_mem_iff.1 (hclose c (mem_cons_or_mem_iff.2 hc) d hd)

/-- **The walk from a class visits every class it reaches.** -/
theorem mem_classWalk_of_reaches {c d : ClassId} (h : Relation.ReflTransGen t.Inherits c d) :
    d ∈ t.classWalk t.env.searchBound [c] [] := by
  have hfuel : [c].length + t.env.unvisitedWeight [] ≤ t.env.searchBound := by
    rw [ClassEnv.searchBound_eq]
    simp
  obtain ⟨hqueue, hclose⟩ := t.classWalk_closed t.env.searchBound [c] []
    (fun _ h => absurd h List.not_mem_nil) hfuel
  induction h with
  | refl => simpa using hqueue c List.mem_cons_self
  | tail _ hbd ih =>
    have := hclose _ (.inr ih) _ (inherits_iff_mem_parents.1 hbd)
    simpa using this

/-! ## The candidates of one class -/

/-- How `receiver` sees the members of class `c`: through its view of `c` as an ancestor. -/
def viewSubst (env : ClassEnv) (receiver : Ty) (c : ClassId) : Subst :=
  match receiver.ancestor env c with
  | some v => v.type.substOf env
  | none => []

/-- Method `f` of class `c` as a candidate for a call on `receiver`, its types seen from the
receiver. -/
def candidateFrom (t : SymbolTable) (env : ClassEnv) (receiver : Ty) (c : ClassId)
    (f : FunctionId) : Candidate :=
  ⟨f, (t.fn f).params.map (·.substitute (viewSubst env receiver c)),
    (t.fn f).result.substitute (viewSubst env receiver c)⟩

/-- The candidates found so far, after method `f` of class `c`: its candidate is added when it
is static or not as asked and no candidate found has equal parameter types. -/
def addCandidate (t : SymbolTable) (env : ClassEnv) (receiver : Ty) (wantStatic : Bool)
    (c : ClassId) (found : List Candidate) (f : FunctionId) : List Candidate :=
  if (t.fn f).flags.isStatic != wantStatic then found
  else if found.any (fun prev => Ty.equalList prev.params (t.candidateFrom env receiver c f).params)
  then found
  else found ++ [t.candidateFrom env receiver c f]

theorem classCandidates_eq (env : ClassEnv) (receiver : Ty) (name : String) (wantStatic : Bool)
    (c : ClassId) (found : List Candidate) :
    t.classCandidates env receiver name wantStatic c found =
      ((t.cls c).methods.getD name []).foldl (t.addCandidate env receiver wantStatic c) found :=
  rfl

section Add

variable {env : ClassEnv} {receiver : Ty} {wantStatic : Bool} {c : ClassId}

/-- No two candidates with equal parameter types. -/
def Distinct (cs : List Candidate) : Prop :=
  cs.Pairwise fun a b => Ty.equalList a.params b.params = false

theorem prefix_addCandidate (found : List Candidate) (f : FunctionId) :
    found <+: t.addCandidate env receiver wantStatic c found f := by
  unfold addCandidate
  split
  · exact List.prefix_refl found
  · split
    · exact List.prefix_refl found
    · exact List.prefix_append found _

theorem Distinct.addCandidate {found : List Candidate} (h : Distinct found) (f : FunctionId) :
    Distinct (t.addCandidate env receiver wantStatic c found f) := by
  unfold SymbolTable.addCandidate
  split
  · exact h
  · split
    · exact h
    · next hhidden =>
      apply List.pairwise_append.2
      refine ⟨h, List.pairwise_singleton _ _, fun a ha b hb => ?_⟩
      rw [List.mem_singleton] at hb
      subst hb
      simp only [List.any_eq_true, not_exists, not_and, Bool.not_eq_true] at hhidden
      exact hhidden a ha

theorem mem_addCandidate {found : List Candidate} {f : FunctionId} {x : Candidate}
    (hx : x ∈ t.addCandidate env receiver wantStatic c found f) :
    x ∈ found ∨ (t.fn f).flags.isStatic = wantStatic ∧ x = t.candidateFrom env receiver c f := by
  unfold addCandidate at hx
  split at hx
  · exact .inl hx
  · next hstatic =>
    split at hx
    · exact .inl hx
    · rcases List.mem_append.1 hx with hx | hx
      · exact .inl hx
      · simp only [bne_iff_ne, ne_eq, Decidable.not_not] at hstatic
        exact .inr ⟨hstatic, List.mem_singleton.1 hx⟩

theorem listed_addCandidate (found : List Candidate) {f : FunctionId}
    (hstatic : (t.fn f).flags.isStatic = wantStatic) :
    t.candidateFrom env receiver c f ∈ t.addCandidate env receiver wantStatic c found f ∨
      ∃ prev ∈ found, Ty.equalList prev.params (t.candidateFrom env receiver c f).params = true := by
  unfold addCandidate
  rw [if_neg (by simp [hstatic])]
  split
  · next hhidden =>
    obtain ⟨prev, hprev, heq⟩ := List.any_eq_true.1 hhidden
    exact .inr ⟨prev, hprev, heq⟩
  · exact .inl (List.mem_append_right _ (List.mem_singleton_self _))

/-! ### Over a class's methods -/

theorem prefix_foldl_addCandidate (fs : List FunctionId) (found : List Candidate) :
    found <+: fs.foldl (t.addCandidate env receiver wantStatic c) found := by
  induction fs generalizing found with
  | nil => exact List.prefix_refl found
  | cons f fs ih => exact (prefix_addCandidate found f).trans (ih _)

theorem Distinct.foldl_addCandidate (fs : List FunctionId) {found : List Candidate}
    (h : Distinct found) : Distinct (fs.foldl (t.addCandidate env receiver wantStatic c) found) := by
  induction fs generalizing found with
  | nil => exact h
  | cons f fs ih => exact ih (h.addCandidate f)

theorem mem_foldl_addCandidate (fs : List FunctionId) {found : List Candidate} {x : Candidate}
    (hx : x ∈ fs.foldl (t.addCandidate env receiver wantStatic c) found) :
    x ∈ found ∨ ∃ f ∈ fs, (t.fn f).flags.isStatic = wantStatic ∧
      x = t.candidateFrom env receiver c f := by
  induction fs generalizing found with
  | nil => exact .inl hx
  | cons f fs ih =>
    rcases ih hx with hx | ⟨g, hg, hgx⟩
    · rcases mem_addCandidate hx with hx | hfx
      · exact .inl hx
      · exact .inr ⟨f, List.mem_cons_self, hfx⟩
    · exact .inr ⟨g, List.mem_cons_of_mem f hg, hgx⟩

/-- A method static or not as asked is listed, or hidden by a candidate listed before it. -/
theorem listed_foldl_addCandidate {fs : List FunctionId} {f : FunctionId} (hf : f ∈ fs)
    (hstatic : (t.fn f).flags.isStatic = wantStatic) (found : List Candidate) :
    let result := fs.foldl (t.addCandidate env receiver wantStatic c) found
    t.candidateFrom env receiver c f ∈ result ∨
      ∃ prev ∈ result, Ty.equalList prev.params (t.candidateFrom env receiver c f).params = true := by
  induction fs generalizing found with
  | nil => cases hf
  | cons g fs ih =>
    intro result
    rcases List.mem_cons.1 hf with rfl | hf
    · have hrest : t.addCandidate env receiver wantStatic c found f <+: result :=
        prefix_foldl_addCandidate fs _
      rcases listed_addCandidate found hstatic with hin | ⟨prev, hprev, heq⟩
      · exact .inl (hrest.subset hin)
      · exact .inr ⟨prev, hrest.subset (prefix_addCandidate found f |>.subset hprev), heq⟩
    · exact ih hf _

end Add

/-! ## The candidates along the walk -/

section Walk

variable {env : ClassEnv} {receiver : Ty} {name : String} {wantStatic : Bool}

/-- The candidates gathered along a list of classes. -/
abbrev gathered (t : SymbolTable) (env : ClassEnv) (receiver : Ty) (name : String)
    (wantStatic : Bool) (W : List ClassId) (found : List Candidate) : List Candidate :=
  W.foldl (fun found c => t.classCandidates env receiver name wantStatic c found) found

theorem prefix_gathered (W : List ClassId) (found : List Candidate) :
    found <+: t.gathered env receiver name wantStatic W found := by
  induction W generalizing found with
  | nil => exact List.prefix_refl found
  | cons c W ih => exact (prefix_foldl_addCandidate _ found).trans (ih _)

theorem Distinct.gathered (W : List ClassId) {found : List Candidate} (h : Distinct found) :
    Distinct (t.gathered env receiver name wantStatic W found) := by
  induction W generalizing found with
  | nil => exact h
  | cons c W ih => exact ih (h.foldl_addCandidate _)

/-- Each candidate gathered along the walk is a method, static or not as asked, of a class of
the walk, seen from the receiver. -/
theorem mem_gathered {W : List ClassId} {found : List Candidate} {x : Candidate}
    (hx : x ∈ t.gathered env receiver name wantStatic W found) :
    x ∈ found ∨ ∃ c ∈ W, ∃ f ∈ (t.cls c).methods.getD name [],
      (t.fn f).flags.isStatic = wantStatic ∧ x = t.candidateFrom env receiver c f := by
  induction W generalizing found with
  | nil => exact .inl hx
  | cons c W ih =>
    rcases ih hx with hx | ⟨d, hd, f, hf, hfx⟩
    · rcases mem_foldl_addCandidate _ hx with hx | ⟨f, hf, hfx⟩
      · exact .inl hx
      · exact .inr ⟨c, List.mem_cons_self, f, hf, hfx⟩
    · exact .inr ⟨d, List.mem_cons_of_mem c hd, f, hf, hfx⟩

/-- **A method of a class of the walk is listed, or hidden by one listed from a class visited no
later.** -/
theorem listed_gathered {W : List ClassId} (hW : W.Nodup) {c : ClassId} (hc : c ∈ W)
    {f : FunctionId} (hf : f ∈ (t.cls c).methods.getD name [])
    (hstatic : (t.fn f).flags.isStatic = wantStatic) :
    t.candidateFrom env receiver c f ∈ t.gathered env receiver name wantStatic W [] ∨
      ∃ c' ∈ W, ∃ f' ∈ (t.cls c').methods.getD name [], (t.fn f').flags.isStatic = wantStatic ∧
        t.candidateFrom env receiver c' f' ∈ t.gathered env receiver name wantStatic W [] ∧
        Ty.equalList (t.candidateFrom env receiver c' f').params
          (t.candidateFrom env receiver c f).params = true ∧
        W.idxOf c' ≤ W.idxOf c := by
  obtain ⟨pre, post, rfl⟩ := List.append_of_mem hc
  have hpre : c ∉ pre := fun h => (List.nodup_append.1 hW).2.2 c h c List.mem_cons_self rfl
  have hidx : (pre ++ c :: post).idxOf c = pre.length := by
    rw [List.idxOf_append, if_neg hpre, List.idxOf_cons_self, Nat.zero_add]
  -- the candidates before `c`, and after its methods
  set before := t.gathered env receiver name wantStatic pre []
  set after := t.classCandidates env receiver name wantStatic c before
  have hall : t.gathered env receiver name wantStatic (pre ++ c :: post) [] =
      t.gathered env receiver name wantStatic post after := by
    simp only [gathered, List.foldl_append, List.foldl_cons]
    rfl
  have hafter : after <+: t.gathered env receiver name wantStatic (pre ++ c :: post) [] :=
    hall ▸ prefix_gathered post after
  rcases listed_foldl_addCandidate hf hstatic before with hin | ⟨prev, hprev, heq⟩
  · exact .inl (hafter.subset hin)
  right
  rcases mem_foldl_addCandidate _ hprev with hprev' | ⟨g, hg, hgs, rfl⟩
  · -- hidden by a candidate of a class before `c`
    rcases mem_gathered hprev' with hnil | ⟨c', hc', f', hf', hs', rfl⟩
    · cases hnil
    refine ⟨c', List.mem_append_left _ hc', f', hf', hs', hafter.subset hprev, heq, ?_⟩
    rw [hidx, List.idxOf_append_of_mem hc']
    exact (List.idxOf_lt_length_of_mem hc').le
  · -- hidden by another method of `c`
    exact ⟨c, hc, g, hg, hgs, hafter.subset hprev, heq, le_refl _⟩

theorem Distinct.params_ne {cs : List Candidate} (h : Distinct cs) {x y : Candidate}
    (hx : x ∈ cs) (hy : y ∈ cs) (hxy : x ≠ y) : x.params ≠ y.params := by
  induction h with
  | nil => cases hx
  | @cons a cs ha _ ih =>
    intro heq
    have hself : Ty.equalList x.params y.params = true := (Ty.equalList_iff_eq _ _).2 heq
    rcases List.mem_cons.1 hx with hxa | hx' <;> rcases List.mem_cons.1 hy with hya | hy'
    · exact hxy (hxa.trans hya.symm)
    · subst hxa
      rw [ha y hy'] at hself
      cases hself
    · subst hya
      have hyx := ha x hx'
      rw [heq, (Ty.equalList_iff_eq _ _).2 rfl] at hyx
      cases hyx
    · exact ih hx' hy' heq

end Walk

/-! ## Tables with well-formed supertypes and members -/

/-- Class `c` names class `d` as its superclass. -/
def Subclass (t : SymbolTable) (c d : ClassId) : Prop := (t.cls c).superId? = some d

/-- A table whose supertypes and members are well formed: interface clauses name interfaces and
superclass clauses classes, interfaces have no superclass, superclass clauses are applied to
their class's parameters, no class inherits from itself, each method belongs to the class that
lists it and mentions only its class's and its own parameters, an override overrides a
non-generic method of a superclass, and `Object` has at most one method of each name. -/
structure Linked (t : SymbolTable) : Prop where
  separates : t.env.Separates fun c => (t.cls c).isInterface
  supers_scoped : t.env.Scoped
  super_class : ∀ c s, t.Subclass c s → (t.cls s).isInterface = false
  acyclic : t.Acyclic
  owned : t.Owned
  listed : ∀ c n f, f ∈ (t.cls c).methods.getD n [] → f ∈ (t.cls c).methodOrder
  params_scoped : ∀ c f, f ∈ (t.cls c).methodOrder → ∀ p ∈ (t.fn f).params, ∀ x ∈ p.paramNames,
    x ∈ (t.cls c).generics ∨ x ∈ (t.fn f).generics
  overrides : ∀ e b, (t.fn e).overrides = some b → ∃ c o, t.Overrides c e b ∧
    Relation.TransGen t.Subclass c o ∧ b ∈ (t.cls o).methodOrder ∧ (t.fn b).generics = []
  object_methods : ∀ n, ((t.cls objectClass).methods.getD n []).length ≤ 1

theorem selfType_eq (t : SymbolTable) (c : ClassId) :
    (t.cls c).selfType c = Ty.selfType t.env c := by
  rw [Ty.selfType, getD_env]
  rfl

theorem inherits_of_subclass {c d : ClassId} (h : t.Subclass c d) : t.Inherits c d := .inl h

namespace Linked

variable (h : t.Linked)
include h

theorem classAt_succ (X : Ty) (k : Nat) :
    t.env.classAt X (k + 1) = (t.env.classAt X k).bind fun c => (t.cls c).superId? := by
  rw [ClassEnv.classAt_succ h.supers_scoped]
  simp only [getD_env]
  rfl

/-- A class whose superclass is `d` is no interface. -/
theorem not_interface_of_subclass {c d : ClassId} (hcd : t.Subclass c d) :
    (t.cls c).isInterface = false := by
  cases hi : (t.cls c).isInterface
  · rfl
  · have hnone := h.separates.no_super c hi
    rw [getD_env] at hnone
    simp [Subclass, ClassSymbol.superId?, hnone] at hcd

/-- The classes further along a chain are superclasses, directly or not, of those before. -/
theorem subclass_of_classAt {X : Ty} {j : Nat} {a : ClassId} (ha : t.env.classAt X j = some a) :
    ∀ n {b : ClassId}, t.env.classAt X (j + n + 1) = some b → Relation.TransGen t.Subclass a b := by
  intro n
  induction n with
  | zero =>
    intro b hb
    rw [h.classAt_succ, ha] at hb
    exact .single hb
  | succ n ih =>
    intro b hb
    rw [show j + (n + 1) + 1 = (j + n + 1) + 1 by omega, h.classAt_succ] at hb
    obtain ⟨d, hd, hdb⟩ := Option.bind_eq_some_iff.1 hb
    exact .tail (ih hd) hdb

/-- Without cycles, a chain meets each class at most once. -/
theorem classAt_ne_of_lt {X : Ty} {j k : Nat} {d : ClassId} (hj : t.env.classAt X j = some d)
    (hk : k < j) : t.env.classAt X k ≠ some d := by
  intro hkd
  have hcyc := h.subclass_of_classAt hkd (j - k - 1) (by rw [show k + (j - k - 1) + 1 = j by omega]; exact hj)
  exact h.acyclic d (Relation.TransGen.mono (fun _ _ hab => inherits_of_subclass hab) _ _ hcyc)

theorem exists_classAt_of_transGen {X : Ty} {j : Nat} {c o : ClassId}
    (hc : t.env.classAt X j = some c) (hco : Relation.TransGen t.Subclass c o) :
    ∃ m, t.env.classAt X (j + m + 1) = some o := by
  induction hco with
  | single hcd =>
    refine ⟨0, ?_⟩
    rw [h.classAt_succ, hc]
    exact hcd
  | tail _ hde ih =>
    obtain ⟨m, hm⟩ := ih
    refine ⟨m + 1, ?_⟩
    rw [show j + (m + 1) + 1 = (j + m + 1) + 1 by omega, h.classAt_succ, hm]
    exact hde

theorem exists_classAt_of_reflTransGen {X : Ty} {c0 c : ClassId} (hc0 : X.classOf? = some c0)
    (hc : Relation.ReflTransGen t.Subclass c0 c) : ∃ i, t.env.classAt X i = some c := by
  induction hc with
  | refl => exact ⟨0, by simp [ClassEnv.classAt, ClassEnv.superChain, hc0]⟩
  | tail _ hde ih =>
    obtain ⟨i, hi⟩ := ih
    refine ⟨i + 1, ?_⟩
    rw [h.classAt_succ, hi]
    exact hde

/-- A class that is no interface is reached through superclass clauses only: an interface clause
leads to an interface, and an interface has no superclass. -/
theorem subclass_of_reaches {c0 c : ClassId} (hreach : Relation.ReflTransGen t.Inherits c0 c)
    (hc : (t.cls c).isInterface = false) : Relation.ReflTransGen t.Subclass c0 c := by
  induction hreach with
  | refl => exact .refl
  | @tail b c _ hbc ih =>
    rcases hbc with hsub | ⟨i, hi, hic⟩
    · exact .tail (ih (h.not_interface_of_subclass hsub)) hsub
    · rw [← getD_env] at hi
      obtain ⟨d, args, n, rfl, hd⟩ := h.separates.interfaces b _ hi
      simp only [Ty.classOf?, Option.some.injEq] at hic
      subst hic
      rw [hd] at hc
      cases hc

/-- A receiver sees a class on its superclass chain as the chain's instance of it. -/
theorem viewSubst_eq {X A : Ty} {i : Nat} {c : ClassId} (hX : X.classOf?.isSome)
    (hA : t.env.superChain X i = some A) (hAc : A.classOf? = some c)
    (hc : (t.cls c).isInterface = false) : viewSubst t.env X c = A.substOf t.env := by
  have hci : t.env.classAt X i = some c := by simp [ClassEnv.classAt, hA, hAc]
  rw [viewSubst, ClassEnv.ancestor_superChain h.separates h.supers_scoped hA hAc hc
    (fun k hk => h.classAt_ne_of_lt hci hk) hX]

theorem ne_of_transGen {c o : ClassId} (hco : Relation.TransGen t.Subclass c o) : c ≠ o := by
  rintro rfl
  exact h.acyclic c (Relation.TransGen.mono (fun _ _ hab => inherits_of_subclass hab) _ _ hco)

/-- Both ends of a superclass path are classes, not interfaces. -/
theorem not_interface_of_transGen {c o : ClassId} (hco : Relation.TransGen t.Subclass c o) :
    (t.cls c).isInterface = false ∧ (t.cls o).isInterface = false := by
  obtain ⟨d, hcd, -⟩ := Relation.TransGen.head'_iff.1 hco
  obtain ⟨d', -, hdo⟩ := Relation.TransGen.tail'_iff.1 hco
  exact ⟨h.not_interface_of_subclass hcd, h.super_class d' o hdo⟩

/-- Where an override and its base sit: the overriding class on the receiver's superclass chain,
the base's class on the overriding class's chain and on the receiver's further on. -/
theorem override_positions {R : Ty} {c0 c o : ClassId} (hR : R.classOf? = some c0)
    (hreach : Relation.ReflTransGen t.Inherits c0 c) (hco : Relation.TransGen t.Subclass c o) :
    ∃ i m A S B, t.env.superChain R i = some A ∧ A.classOf? = some c ∧
      t.env.superChain (Ty.selfType t.env c) (m + 1) = some S ∧ S.classOf? = some o ∧
      t.env.superChain R (i + m + 1) = some B ∧ B.classOf? = some o := by
  have hc := (h.not_interface_of_transGen hco).1
  obtain ⟨i, hi⟩ := h.exists_classAt_of_reflTransGen hR (h.subclass_of_reaches hreach hc)
  have hself : t.env.classAt (Ty.selfType t.env c) 0 = some c := by
    simp [ClassEnv.classAt, ClassEnv.superChain, Ty.selfType, Ty.classOf?]
  obtain ⟨m, hm⟩ := h.exists_classAt_of_transGen hself hco
  rw [Nat.zero_add] at hm
  have hRo : t.env.classAt R (i + m + 1) = some o := by
    have hshift := ClassEnv.classAt_add_of_eq h.supers_scoped (hi.trans hself.symm) (m + 1)
    rw [Nat.zero_add, hm, ← Nat.add_assoc] at hshift
    exact hshift
  obtain ⟨A, hA, hAc⟩ := Option.bind_eq_some_iff.1 hi
  obtain ⟨S, hS, hSo⟩ := Option.bind_eq_some_iff.1 hm
  obtain ⟨B, hB, hBo⟩ := Option.bind_eq_some_iff.1 hRo
  exact ⟨i, m, A, S, B, hA, hAc, hS, hSo, hB, hBo⟩

/-- A method of a superclass, seen from a class, is seen through that class's own chain. -/
theorem paramsSeenFrom_of_transGen {c o m : ClassId} {S : Ty} {b : FunctionId}
    (hco : Relation.TransGen t.Subclass c o)
    (hS : t.env.superChain (Ty.selfType t.env c) (m + 1) = some S) (hSo : S.classOf? = some o)
    (hown : (t.fn b).owner = some o) :
    t.paramsSeenFrom c (t.fn b) = (t.fn b).params.map (·.substitute (S.substOf t.env)) := by
  have ho := (h.not_interface_of_transGen hco).2
  have hinh : t.inheritedSubst c (t.fn b) = S.substOf t.env := by
    have hview := h.viewSubst_eq (by simp [Ty.selfType, Ty.classOf?]) hS hSo ho
    simp only [inheritedSubst, hown, selfType_eq]
    exact hview
  have hne : (some o == some c || (some o : Option ClassId).isNone) = false := by
    simpa using (h.ne_of_transGen hco).symm
  rw [paramsSeenFrom, hown, hne, if_neg Bool.false_ne_true, hinh]

/-- A non-generic method's parameter types mention only its class's parameters. -/
theorem paramNames_of_generics_nil {o : ClassId} {b : FunctionId}
    (hbo : b ∈ (t.cls o).methodOrder) (hgen : (t.fn b).generics = []) :
    ∀ p ∈ (t.fn b).params, ∀ x ∈ p.paramNames, x ∈ (t.env.getD o default).generics := by
  intro p hp x hx
  rw [getD_env]
  rcases h.params_scoped o b hbo p hp x hx with hcls | hfn
  · exact hcls
  · rw [hgen] at hfn
    cases hfn

/-- **An override and the method it overrides have the same parameter types seen from a receiver
that reaches the override's class.** The link compares the base's types seen from the
overriding class with the override's; a receiver sees both classes on its superclass chain, and
sees the base's class as it sees the overriding class's view of it. -/
theorem override_params_eq {R : Ty} {c0 c o : ClassId} {e b : FunctionId}
    (hR : R.classOf? = some c0) (hreach : Relation.ReflTransGen t.Inherits c0 c)
    (hov : t.Overrides c e b) (hco : Relation.TransGen t.Subclass c o)
    (hbo : b ∈ (t.cls o).methodOrder) (hgen : (t.fn b).generics = []) :
    (t.candidateFrom t.env R c e).params = (t.candidateFrom t.env R o b).params := by
  obtain ⟨i, m, A, S, B, hA, hAc, hS, hSo, hB, hBo⟩ := h.override_positions hR hreach hco
  have hRsome : R.classOf?.isSome := by simp [hR]
  obtain ⟨hc, ho⟩ := h.not_interface_of_transGen hco
  have he : (t.fn e).params = (t.fn b).params.map (·.substitute (S.substOf t.env)) := by
    rw [← h.paramsSeenFrom_of_transGen hco hS hSo (h.owned o b hbo)]
    exact ((Ty.equalList_iff_eq _ _).1 hov.params_eq).symm
  simp only [candidateFrom, h.viewSubst_eq hRsome hA hAc hc, h.viewSubst_eq hRsome hB hBo ho, he,
    List.map_map]
  apply List.map_congr_left
  intro p hp
  obtain ⟨B', hB', hsub⟩ := ClassEnv.substitute_superChain_selfType h.supers_scoped hA hAc hS hSo
    (h.paramNames_of_generics_nil hbo hgen p hp)
  rw [hB, Option.some.injEq] at hB'
  subst hB'
  exact hsub

end Linked

/-! ## The candidates a receiver gets -/

section Candidates

variable {env : ClassEnv} {receiver : Ty} {name : String} {wantStatic : Bool}

/-- The candidates of a receiver of class `c0` are those gathered along the walk from `c0`, or,
when none is found, `Object`'s methods. -/
theorem methodCandidates_cases {c0 : ClassId} (hc0 : receiver.classOf? = some c0) :
    t.methodCandidates env receiver name wantStatic =
        t.gathered env receiver name wantStatic (t.classWalk env.searchBound [c0] []) [] ∨
      t.gathered env receiver name wantStatic (t.classWalk env.searchBound [c0] []) [] = [] ∧
        t.methodCandidates env receiver name wantStatic = t.objectMethods name := by
  unfold methodCandidates
  rw [hc0]
  simp only [gatherMethods_eq]
  split
  · next hfallback =>
    simp only [Bool.and_eq_true, List.isEmpty_iff] at hfallback
    exact .inr ⟨hfallback.2, rfl⟩
  · exact .inl rfl

theorem fn_mem_of_mem_objectMethods {x : Candidate} (hx : x ∈ t.objectMethods name) :
    x.fn ∈ (t.cls objectClass).methods.getD name [] := by
  obtain ⟨f, hf, hfx⟩ := List.mem_filterMap.1 hx
  dsimp only at hfx
  split at hfx
  · cases hfx
  · cases hfx
    exact hf

theorem distinct_objectMethods (hobj : ((t.cls objectClass).methods.getD name []).length ≤ 1) :
    Distinct (t.objectMethods name) := by
  have hlen : (t.objectMethods name).length ≤ 1 := (List.length_filterMap_le _ _).trans hobj
  match hl : t.objectMethods name, hlen with
  | [], _ => exact List.Pairwise.nil
  | [_], _ => exact List.pairwise_singleton _ _
  | _ :: _ :: _, hlen => simp at hlen

/-- **No two candidates have equal parameter types.** -/
theorem methodCandidates_distinct
    (hobj : ∀ n, ((t.cls objectClass).methods.getD n []).length ≤ 1) :
    Distinct (t.methodCandidates env receiver name wantStatic) := by
  rcases hc0 : receiver.classOf? with _ | c0
  · simp only [methodCandidates, hc0]
    exact List.Pairwise.nil
  rcases @methodCandidates_cases t env receiver name wantStatic c0 hc0 with
    hfound | ⟨-, hobject⟩
  · rw [hfound]
    exact Distinct.gathered _ List.Pairwise.nil
  · rw [hobject]
    exact distinct_objectMethods (hobj name)

/-- **Every method of a class the receiver's class reaches is listed, seen from the receiver, or
hidden by a listed method with equal parameter types from a class the walk visits no later.** -/
theorem methodCandidates_listed_or_hidden {c0 c : ClassId} (hc0 : receiver.classOf? = some c0)
    (hreach : Relation.ReflTransGen t.Inherits c0 c) {f : FunctionId}
    (hf : f ∈ (t.cls c).methods.getD name []) (hstatic : (t.fn f).flags.isStatic = wantStatic) :
    let cs := t.methodCandidates t.env receiver name wantStatic
    let W := t.classWalk t.env.searchBound [c0] []
    t.candidateFrom t.env receiver c f ∈ cs ∨
      ∃ c' ∈ W, ∃ f' ∈ (t.cls c').methods.getD name [], (t.fn f').flags.isStatic = wantStatic ∧
        t.candidateFrom t.env receiver c' f' ∈ cs ∧
        Ty.equalList (t.candidateFrom t.env receiver c' f').params
          (t.candidateFrom t.env receiver c f).params = true ∧
        W.idxOf c' ≤ W.idxOf c := by
  intro cs W
  have hlisted := @listed_gathered t t.env receiver name wantStatic _ (nodup_classWalk _ _ _) _
    (mem_classWalk_of_reaches hreach) _ hf hstatic
  rcases @methodCandidates_cases t t.env receiver name wantStatic c0 hc0 with
    hfound | ⟨hnone, -⟩
  · rw [← hfound] at hlisted
    exact hlisted
  · -- the fallback is taken only when the walk lists nothing
    rw [hnone] at hlisted
    rcases hlisted with hin | ⟨_, _, _, _, _, hin, _⟩ <;> cases hin

/-- A candidate gathered from the walk is its method's candidate from the method's owner. -/
theorem Linked.candidateFrom_owner (h : t.Linked) {W : List ClassId} {x : Candidate}
    (hx : x ∈ t.gathered env receiver name wantStatic W []) {c : ClassId}
    (hown : (t.fn x.fn).owner = some c) : c ∈ W ∧ x = t.candidateFrom env receiver c x.fn := by
  rcases mem_gathered hx with hnil | ⟨d, hd, f, hf, -, rfl⟩
  · cases hnil
  · change (t.fn f).owner = some c at hown
    have hownd : (t.fn f).owner = some d := h.owned d f (h.listed d name f hf)
    rw [hown, Option.some.injEq] at hownd
    subst hownd
    exact ⟨hd, rfl⟩

/-- **An override and the method it overrides are never both candidates.** -/
theorem Linked.not_override_and_base (h : t.Linked) {e b : FunctionId}
    (hover : (t.fn e).overrides = some b)
    (he : e ∈ (t.methodCandidates t.env receiver name wantStatic).map (·.fn)) :
    b ∉ (t.methodCandidates t.env receiver name wantStatic).map (·.fn) := by
  intro hb
  obtain ⟨c, o, hov, hco, hbo, hgen⟩ := h.overrides e b hover
  have hne := h.ne_of_transGen hco
  have hown_e : (t.fn e).owner = some c := h.owned c e hov.mem
  have hown_b : (t.fn b).owner = some o := h.owned o b hbo
  have heb : e ≠ b := fun heb => hne (Option.some.inj (hown_e.symm.trans (heb ▸ hown_b)))
  obtain ⟨xe, hxe, rfl⟩ := List.mem_map.1 he
  obtain ⟨xb, hxb, rfl⟩ := List.mem_map.1 hb
  rcases hc0 : receiver.classOf? with _ | c0
  · simp [methodCandidates, hc0] at hxe
  rcases @methodCandidates_cases t t.env receiver name wantStatic c0 hc0 with
    hfound | ⟨-, hobject⟩
  · have hdistinct := @methodCandidates_distinct t t.env receiver name wantStatic
      h.object_methods
    rw [hfound] at hxe hxb hdistinct
    obtain ⟨hce, hxe_eq⟩ := h.candidateFrom_owner hxe hown_e
    obtain ⟨-, hxb_eq⟩ := h.candidateFrom_owner hxb hown_b
    obtain ⟨q, hq, hreach⟩ := reaches_of_mem_classWalk _ _ _ _ hce
    rw [List.mem_singleton] at hq
    subst hq
    apply hdistinct.params_ne hxe hxb (fun hx => heb (congrArg Candidate.fn hx))
    rw [hxe_eq, hxb_eq]
    exact h.override_params_eq hc0 hreach hov hco hbo hgen
  · -- in the fallback both would be methods of `Object`
    rw [hobject] at hxe hxb
    have hce := h.owned _ _ (h.listed _ _ _ (fn_mem_of_mem_objectMethods hxe))
    have hcb := h.owned _ _ (h.listed _ _ _ (fn_mem_of_mem_objectMethods hxb))
    rw [hown_e, Option.some.injEq] at hce
    rw [hown_b, Option.some.injEq] at hcb
    exact hne (hce.trans hcb.symm)

/-- **Method candidates hide exactly the overridden methods.** In a table with well-formed
supertypes and members, a receiver's candidates have pairwise different parameter types; every
method of the name asked for, static or not as asked, of a class the receiver's class reaches is
listed with its types seen from the receiver, or hidden by a listed method with equal parameter
types from a class the walk visits no later; and an override and the method it overrides are
never both listed. -/
theorem methodCandidates_hide_overridden (h : t.Linked) (receiver : Ty) (name : String)
    (wantStatic : Bool) :
    (t.methodCandidates t.env receiver name wantStatic).Pairwise
        (fun a b => Ty.equalList a.params b.params = false) ∧
      (∀ c0 c f, receiver.classOf? = some c0 → Relation.ReflTransGen t.Inherits c0 c →
        f ∈ (t.cls c).methods.getD name [] → (t.fn f).flags.isStatic = wantStatic →
        t.candidateFrom t.env receiver c f ∈ t.methodCandidates t.env receiver name wantStatic ∨
          ∃ c' ∈ t.classWalk t.env.searchBound [c0] [],
            ∃ f' ∈ (t.cls c').methods.getD name [], (t.fn f').flags.isStatic = wantStatic ∧
            t.candidateFrom t.env receiver c' f' ∈
              t.methodCandidates t.env receiver name wantStatic ∧
            Ty.equalList (t.candidateFrom t.env receiver c' f').params
              (t.candidateFrom t.env receiver c f).params = true ∧
            (t.classWalk t.env.searchBound [c0] []).idxOf c' ≤
              (t.classWalk t.env.searchBound [c0] []).idxOf c) ∧
      ∀ e b, (t.fn e).overrides = some b →
        e ∈ (t.methodCandidates t.env receiver name wantStatic).map (·.fn) →
        b ∉ (t.methodCandidates t.env receiver name wantStatic).map (·.fn) := by
  refine ⟨methodCandidates_distinct h.object_methods, ?_, ?_⟩
  · intro c0 c f hc0 hreach hf hstatic
    exact methodCandidates_listed_or_hidden hc0 hreach hf hstatic
  · intro e b hover he
    exact h.not_override_and_base hover he

end Candidates

/-! ## The built-in table

The built-in table is linked: its classes are no interfaces, `String` and `Exception` extend
`Object`, and their overrides override `Object`'s methods. Its method maps are computed, so the
facts about them are read off their entries.
-/

theorem getD_methods_eq_nil_or (k : ClassSymbol) (n : String) :
    k.methods.getD n [] = [] ∨ ∃ p ∈ k.methods.toList, p.2 = k.methods.getD n [] := by
  rw [Std.TreeMap.getD_eq_getD_getElem?]
  rcases h : k.methods[n]? with _ | v
  · exact .inl rfl
  · obtain ⟨k', -, hk'⟩ := Std.TreeMap.getElem?_eq_some_iff_exists_compare_eq_eq_and_mem_toList.1 h
    exact .inr ⟨(k', v), hk', rfl⟩

set_option synthInstance.maxSize 1024 in
theorem builtin_linking_evaluated :
    (∀ c < 3, ∀ s ∈ (builtins.cls c).superclass.toList,
      s.classOf? = some objectClass ∧ s.paramNames = []) ∧
    (builtins.cls objectClass).generics = [] ∧
    (∀ c < 3, ∀ p ∈ (builtins.cls c).methods.toList, ∀ f ∈ p.2,
      f ∈ (builtins.cls c).methodOrder) ∧
    (∀ p ∈ (builtins.cls objectClass).methods.toList, p.2.length ≤ 1) ∧
    (∀ f < 32, ∀ p ∈ (builtins.fn f).params, p.paramNames = []) ∧
    (∀ f < 32, ∀ b ∈ (builtins.fn f).overrides.toList, ∃ c < 3, (c, f, b) ∈ builtinOverrides) ∧
    (∀ p ∈ builtinOverrides, (builtins.cls p.1).superId? = some objectClass ∧
      p.2.2 ∈ (builtins.cls objectClass).methodOrder ∧ (builtins.fn p.2.2).generics = []) := by
  decide +kernel

theorem builtins_fn_of_le {f : FunctionId} (hf : 32 ≤ f) : builtins.fn f = default := by
  have hsize : builtins.functions.size ≤ f := by
    rw [builtins_functions_size]
    exact hf
  simp [fn, Array.getD_eq_getD_getElem?, Array.getElem?_eq_none hsize]

/-- A built-in class inherits only from `Object`, which inherits from nothing. -/
theorem builtins_inherits {c d : ClassId} (h : builtins.Inherits c d) :
    d = objectClass ∧ c ≠ objectClass := by
  rcases Nat.lt_or_ge c 3 with hc | hc
  · have hsuper : (builtins.cls c).superId? = some d := by
      rcases h with hs | ⟨i, hi, -⟩
      · exact hs
      · rw [(builtin_kinds c hc).2.2.2] at hi
        cases hi
    refine ⟨builtin_super_object c hc d (by simp [hsuper]), ?_⟩
    rintro rfl
    change (builtins.cls 0).superId? = some d at hsuper
    rw [builtin_supers.1] at hsuper
    cases hsuper
  · rw [inherits_iff_mem_parents, builtins_cls_of_le hc] at h
    cases h

theorem builtins_acyclic : builtins.Acyclic := by
  intro c hc
  obtain ⟨b, -, hbc⟩ := Relation.TransGen.tail'_iff.1 hc
  obtain ⟨d, hcd, -⟩ := Relation.TransGen.head'_iff.1 hc
  exact (builtins_inherits hcd).2 (builtins_inherits hbc).1

theorem builtins_owned : builtins.Owned := by
  intro c f hf
  rcases Nat.lt_or_ge c 3 with hc | hc
  · exact ((builtin_members c hc).1 f hf).1
  · rw [builtins_cls_of_le hc] at hf
    cases hf

theorem builtins_linked : builtins.Linked where
  separates := by
    constructor
    · intro c i hi
      rw [getD_env] at hi
      rcases Nat.lt_or_ge c 3 with hc | hc
      · rw [(builtin_kinds c hc).2.2.2] at hi
        cases hi
      · rw [builtins_cls_of_le hc] at hi
        cases hi
    · intro c hc
      rcases Nat.lt_or_ge c 3 with hlt | hge
      · rw [(builtin_kinds c hlt).2.2.1] at hc
        cases hc
      · rw [getD_env, builtins_cls_of_le hge]
        rfl
  supers_scoped := by
    constructor
    intro c s hs
    rw [getD_env] at hs
    rcases Nat.lt_or_ge c 3 with hc | hc
    · obtain ⟨hobj, hnames⟩ := builtin_linking_evaluated.1 c hc s (by simp [hs])
      obtain ⟨args, n, rfl⟩ : ∃ args n, s = .obj objectClass args n := by
        cases s <;> simp_all [Ty.classOf?]
      refine ⟨objectClass, args, n, rfl, ?_, ?_⟩
      · rw [getD_env, builtin_linking_evaluated.2.1]
        exact Nat.zero_le _
      · intro x hx
        rw [hnames] at hx
        cases hx
    · rw [builtins_cls_of_le hc] at hs
      cases hs
  super_class c s hs := by
    rcases Nat.lt_or_ge c 3 with hc | hc
    · rw [builtin_super_object c hc s (by simp [Subclass] at hs; simp [hs])]
      exact (builtin_kinds 0 (by decide)).2.2.1
    · rw [Subclass, builtins_cls_of_le hc] at hs
      cases hs
  acyclic := builtins_acyclic
  owned := builtins_owned
  listed c n f hf := by
    rcases Nat.lt_or_ge c 3 with hc | hc
    · rcases getD_methods_eq_nil_or (builtins.cls c) n with hnil | ⟨p, hp, hpn⟩
      · rw [hnil] at hf
        cases hf
      · exact builtin_linking_evaluated.2.2.1 c hc p hp f (hpn ▸ hf)
    · rw [builtins_cls_of_le hc] at hf ⊢
      cases hf
  params_scoped c f hf p hp x hx := by
    rcases Nat.lt_or_ge c 3 with hc | hc
    · rw [builtin_linking_evaluated.2.2.2.2.1 f ((builtin_members c hc).1 f hf).2 p hp] at hx
      cases hx
    · rw [builtins_cls_of_le hc] at hf
      cases hf
  overrides e b he := by
    rcases Nat.lt_or_ge e 32 with hlt | hge
    · obtain ⟨c, -, hp⟩ := builtin_linking_evaluated.2.2.2.2.2.1 e hlt b (by simp [he])
      obtain ⟨hsuper, hbo, hgen⟩ := builtin_linking_evaluated.2.2.2.2.2.2 _ hp
      have hagree : builtins.AgreesWithBuiltins := ⟨fun _ _ => rfl, fun _ _ => rfl⟩
      exact ⟨c, objectClass, hagree.overrides hp, .single hsuper, hbo, hgen⟩
    · rw [builtins_fn_of_le hge] at he
      cases he
  object_methods n := by
    rcases getD_methods_eq_nil_or (builtins.cls objectClass) n with hnil | ⟨p, hp, hpn⟩
    · rw [hnil]
      exact Nat.zero_le _
    · rw [← hpn]
      exact builtin_linking_evaluated.2.2.2.1 p hp

/-- In the built-in table, a `String` receiver never has both `toString` of `String` and the
`toString` of `Object` it overrides among its candidates. -/
theorem string_candidates_hide_overridden : builtins.Linked ∧
    ∀ e b, (builtins.fn e).overrides = some b →
      e ∈ (builtins.methodCandidates builtins.env (stringType false) "toString" false).map (·.fn) →
      b ∉ (builtins.methodCandidates builtins.env (stringType false) "toString" false).map (·.fn) :=
  ⟨builtins_linked, (methodCandidates_hide_overridden builtins_linked _ _ _).2.2⟩

end SymbolTable

end AmLang
