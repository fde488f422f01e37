import AmLang.Types.Conversion
/-!
# Substituting generic arguments

A class type's arguments give its class's parameters values (`Ty.substOf`), and substituting
them turns a type written in the class's parameters into the same type seen from that instance.
This module gives substitution the laws that reasoning about inherited members needs.

Type equality is syntactic: `Ty.equal` holds exactly of equal types. A substitution built by
`Subst.set` reads, for each parameter, the last value it was given, so the substitution of a
class type whose arguments are substituted in turn is the first substitution followed by the
second. Any two substitutions in a row are one, their composition; it is the first one with
its values substituted when that gives a value to every parameter the type names, which is the
case for a type written in a class's parameters seen from an instance with at least as many
arguments as the class has parameters. A class's own type gives each
parameter itself, so seeing a type from it changes nothing.

## Main results

* `Ty.equal_iff_eq`, `Ty.equalList_iff_eq` — type equality is equality.
* `Ty.lookup_substOf`, `Ty.lookup_substOf_map` — what a class type's substitution gives a
  parameter, and how substituting the arguments changes it.
* `Ty.substitute_substitute` — two substitutions in a row are one.
* `Subst.lookup_andThen`, `Ty.substitution_composes` — for any two substitutions, substituting
  one and then the other is substituting their composition `Subst.andThen`.
* `Ty.substitute_substOf_substitute` — seeing a type from an instance and then substituting is
  seeing it from the substituted instance.
* `Ty.substitute_substOf_selfType` — a class's own type leaves its types alone.
-/

namespace AmLang

/-- Primitive kinds compare as they are equal. -/
theorem Prim.beq_iff_eq {a b : Prim} : (a == b) = true ↔ a = b := by
  cases a <;> cases b <;> decide

namespace Subst

/-- Setting a parameter already bound keeps every pair's name. -/
theorem key_comp_update (x : String) (t : Ty) (y : String) :
    ((fun p : String × Ty => p.1 == y) ∘
      fun (p : String × Ty) => if p.1 == x then (p.1, t) else (p.1, p.2)) = fun p => p.1 == y := by
  funext q
  by_cases hq : q.1 = x <;> simp [hq]

/-- Setting a parameter gives it the new value and leaves the others alone. -/
theorem lookup_set (s : Subst) (x y : String) (t : Ty) :
    (s.set x t).lookup y = if x = y then some t else s.lookup y := by
  unfold set lookup
  split
  · next hany =>
    rw [List.find?_map]
    by_cases hxy : x = y
    · subst hxy
      obtain ⟨p, hp⟩ := Option.isSome_iff_exists.1 (List.find?_isSome.2 (List.any_eq_true.1 hany))
      have hpx : p.1 = x := by simpa using List.find?_some hp
      rw [key_comp_update, hp]
      simp [hpx]
    · rw [key_comp_update, if_neg hxy]
      rcases hfind : List.find? (fun p : String × Ty => p.1 == y) s with _ | p
      · rfl
      · have hpy : p.1 = y := by simpa using List.find?_some hfind
        have hpx : p.1 ≠ x := fun h => hxy (h.symm.trans hpy)
        simp [hpx]
  · next hany =>
    rw [List.find?_append]
    by_cases hxy : x = y
    · subst hxy
      have hnone : List.find? (fun p : String × Ty => p.1 == x) s = none := by
        rw [List.find?_eq_none]
        intro p hp hpx
        exact hany (List.any_eq_true.2 ⟨p, hp, hpx⟩)
      simp [hnone]
    · simp [hxy]

/-- The substitution after a run of `set`s, read from the last pair that names a parameter,
else from the substitution it started from. -/
theorem lookup_foldl_set (pairs : List (String × Ty)) (s0 : Subst) (y : String) :
    (pairs.foldl (fun s (x, t) => s.set x t) s0).lookup y =
      ((pairs.reverse.find? (·.1 == y)).map (·.2)).or (s0.lookup y) := by
  induction pairs generalizing s0 with
  | nil => simp
  | cons p pairs ih =>
    obtain ⟨x, t⟩ := p
    rw [List.foldl_cons, ih, lookup_set, List.reverse_cons, List.find?_append]
    by_cases hxy : x = y
    · cases hfind : List.find? (fun q : String × Ty => q.1 == y) pairs.reverse <;> simp [hxy]
    · simp [hxy]

/-- Substituting `s₁` and then `s₂`, as one substitution: a parameter that `s₁` gives a value
gets that value with `s₂` put in, any other parameter the value `s₂` gives it. -/
def andThen (s₁ s₂ : Subst) : Subst :=
  s₁.map (fun p => (p.1, p.2.substitute s₂)) ++ s₂.filter fun p => !s₁.any (·.1 == p.1)

theorem lookup_andThen (s₁ s₂ : Subst) (x : String) :
    (s₁.andThen s₂).lookup x = ((s₁.lookup x).map (·.substitute s₂)).or (s₂.lookup x) := by
  unfold andThen lookup
  rw [List.find?_append, List.find?_map, List.find?_filter, Option.map_map]
  rcases h₁ : List.find? (fun p : String × Ty => p.1 == x) s₁ with _ | p
  · -- no pair of `s₁` names `x`, so the filter keeps every pair of `s₂` that does
    have hx : s₁.any (·.1 == x) = false := by
      rw [List.find?_eq_none] at h₁
      simpa using h₁
    have hkeep : (fun q : String × Ty => decide ((!s₁.any (·.1 == q.1)) = true ∧ (q.1 == x) = true)) =
        fun q => q.1 == x := by
      funext q
      by_cases hq : q.1 = x
      · simp [hq, hx]
      · simp [hq]
    have hmap : List.find? ((fun p : String × Ty => p.1 == x) ∘ fun p => (p.1, p.2.substitute s₂)) s₁ =
        none := by
      rw [List.find?_eq_none] at h₁ ⊢
      exact fun q hq => h₁ q hq
    rw [hmap, hkeep]
    rfl
  · have hmap : List.find? ((fun p : String × Ty => p.1 == x) ∘ fun p => (p.1, p.2.substitute s₂)) s₁ =
        some p := h₁
    rw [hmap]
    rfl

end Subst

namespace Ty

/-! ## Equality -/

theorem equal_def (a b : Ty) : equal a b = (a.nullable == b.nullable && equalShape a b) := by
  rw [equal]

mutual

theorem equal_iff_eq : ∀ a b : Ty, equal a b = true ↔ a = b
  | .prim k n, b => by
    cases b <;> simp [equal, equalShape, nullable, Prim.beq_iff_eq, and_comm]
  | .obj c as n, b => by
    cases b with
    | obj d bs m =>
      rw [equal_def]
      simp only [equalShape, nullable, Bool.and_eq_true, beq_iff_eq, equalList_iff_eq as bs,
        obj.injEq]
      exact ⟨fun h => ⟨h.2.1, h.2.2, h.1⟩, fun h => ⟨h.2.2, h.1, h.2.1⟩⟩
    | _ => simp [equal, equalShape]
  | .array e n, b => by
    cases b with
    | array e' m =>
      rw [equal_def]
      simp only [equalShape, nullable, Bool.and_eq_true, beq_iff_eq, equal_iff_eq e e',
        array.injEq]
      exact and_comm
    | _ => simp [equal, equalShape]
  | .func ps r n, b => by
    cases b with
    | func qs r' m =>
      rw [equal_def]
      simp only [equalShape, nullable, Bool.and_eq_true, beq_iff_eq, equalList_iff_eq ps qs,
        equal_iff_eq r r', func.injEq]
      exact ⟨fun h => ⟨h.2.1, h.2.2, h.1⟩, fun h => ⟨h.2.2, h.1, h.2.1⟩⟩
    | _ => simp [equal, equalShape]
  | .param x n, b => by
    cases b <;> simp [equal, equalShape, nullable, and_comm]
  | .null, b => by cases b <;> simp [equal, equalShape, nullable]
  | .error, b => by cases b <;> simp [equal, equalShape, nullable]
  | .never, b => by cases b <;> simp [equal, equalShape, nullable]

theorem equalList_iff_eq : ∀ as bs : List Ty, equalList as bs = true ↔ as = bs
  | [], [] => by simp [equalList]
  | [], _ :: _ => by simp [equalList]
  | _ :: _, [] => by simp [equalList]
  | a :: as, b :: bs => by
    simp only [equalList, Bool.and_eq_true, equal_iff_eq a b, equalList_iff_eq as bs,
      List.cons.injEq]

end

/-! ## The parameters a type names -/

mutual

/-- The generic parameters a type names, in order of appearance. -/
def paramNames : Ty → List String
  | .param x _ => [x]
  | .obj _ args _ => paramNamesAll args
  | .array e _ => paramNames e
  | .func ps r _ => paramNamesAll ps ++ paramNames r
  | _ => []

/-- The generic parameters a list of types names. -/
def paramNamesAll : List Ty → List String
  | [] => []
  | t :: ts => paramNames t ++ paramNamesAll ts

end

theorem substituteAll_eq_map (s : Subst) : ∀ l : List Ty, substituteAll s l = l.map (substitute s)
  | [] => rfl
  | t :: ts => by rw [substituteAll, substituteAll_eq_map s ts, List.map_cons]

/-! ## Substitution and the nullable mark -/

theorem withNullable_true_idem (t : Ty) : (t.withNullable true).withNullable true = t.withNullable true := by
  cases t with
  | prim k n =>
    unfold withNullable
    by_cases hk : k = .unit <;> simp [hk, Prim.beq_iff_eq]
  | _ => rfl

/-- Marking a type nullable commutes with substitution: a nullable parameter becomes its value
made nullable, which marking the value again leaves as it is. -/
theorem substitute_withNullable_true (s : Subst) (t : Ty) :
    (t.withNullable true).substitute s = (t.substitute s).withNullable true := by
  cases t with
  | prim k n =>
    unfold withNullable
    by_cases hk : k = .unit <;> simp [substitute, hk, Prim.beq_iff_eq]
  | param x n =>
    show (Ty.param x true).substitute s = _
    simp only [substitute]
    cases s.lookup x with
    | none => rfl
    | some u =>
      cases n
      · rfl
      · exact (withNullable_true_idem u).symm
  | obj c args n => simp [withNullable, substitute]
  | array e n => simp [withNullable, substitute]
  | func ps r n => simp [withNullable, substitute]
  | null => rfl
  | error => rfl
  | never => rfl

/-! ## Substitutions that agree -/

mutual

/-- Two substitutions that give the parameters a type names the same values substitute it
alike. -/
theorem substitute_congr {s s' : Subst} :
    ∀ t : Ty, (∀ x ∈ t.paramNames, s.lookup x = s'.lookup x) → t.substitute s = t.substitute s'
  | .prim _ _, _ => rfl
  | .obj c args n, h => by
    simp only [substitute, substituteAll_congr args h]
  | .array e n, h => by
    simp only [substitute, substitute_congr e h]
  | .func ps r n, h => by
    simp only [paramNames, List.mem_append] at h
    simp only [substitute, substituteAll_congr ps fun x hx => h x (.inl hx),
      substitute_congr r fun x hx => h x (.inr hx)]
  | .param x n, h => by
    simp only [substitute, h x (by simp [paramNames])]
  | .null, _ => rfl
  | .error, _ => rfl
  | .never, _ => rfl

theorem substituteAll_congr {s s' : Subst} :
    ∀ l : List Ty, (∀ x ∈ paramNamesAll l, s.lookup x = s'.lookup x) →
      substituteAll s l = substituteAll s' l
  | [], _ => rfl
  | t :: ts, h => by
    simp only [paramNamesAll, List.mem_append] at h
    simp only [substituteAll, substitute_congr t fun x hx => h x (.inl hx),
      substituteAll_congr ts fun x hx => h x (.inr hx)]

end

mutual

/-- A substitution that gives each parameter a type names that parameter itself leaves the type
alone. -/
theorem substitute_of_lookup_self {s : Subst} :
    ∀ t : Ty, (∀ x ∈ t.paramNames, s.lookup x = some (.param x false)) → t.substitute s = t
  | .prim _ _, _ => rfl
  | .obj c args n, h => by
    simp only [substitute, substituteAll_of_lookup_self args h]
  | .array e n, h => by
    simp only [substitute, substitute_of_lookup_self e h]
  | .func ps r n, h => by
    simp only [paramNames, List.mem_append] at h
    simp only [substitute, substituteAll_of_lookup_self ps fun x hx => h x (.inl hx),
      substitute_of_lookup_self r fun x hx => h x (.inr hx)]
  | .param x n, h => by
    simp only [substitute, h x (by simp [paramNames])]
    cases n <;> rfl
  | .null, _ => rfl
  | .error, _ => rfl
  | .never, _ => rfl

theorem substituteAll_of_lookup_self {s : Subst} :
    ∀ l : List Ty, (∀ x ∈ paramNamesAll l, s.lookup x = some (.param x false)) →
      substituteAll s l = l
  | [], _ => rfl
  | t :: ts, h => by
    simp only [paramNamesAll, List.mem_append] at h
    simp only [substituteAll, substitute_of_lookup_self t fun x hx => h x (.inl hx),
      substituteAll_of_lookup_self ts fun x hx => h x (.inr hx)]

end

/-! ## Two substitutions in a row -/

section Compose

variable {s σ s' : Subst}

mutual

/-- Substituting `s` and then `σ` is substituting `s'`, when `s'` gives each parameter `s`'s
value substituted by `σ`, and `s` gives every parameter the type names a value. -/
theorem substitute_substitute (hs' : ∀ x, s'.lookup x = (s.lookup x).map (substitute σ)) :
    ∀ t : Ty, (∀ x ∈ t.paramNames, (s.lookup x).isSome) →
      (t.substitute s).substitute σ = t.substitute s'
  | .prim _ _, _ => rfl
  | .obj c args n, h => by
    simp only [substitute, substituteAll_substituteAll hs' args h]
  | .array e n, h => by
    simp only [substitute, substitute_substitute hs' e h]
  | .func ps r n, h => by
    simp only [paramNames, List.mem_append] at h
    simp only [substitute, substituteAll_substituteAll hs' ps fun x hx => h x (.inl hx),
      substitute_substitute hs' r fun x hx => h x (.inr hx)]
  | .param x n, h => by
    obtain ⟨u, hu⟩ := Option.isSome_iff_exists.1 (h x (by simp [paramNames]))
    simp only [substitute, hu, hs' x, Option.map_some]
    cases n
    · rfl
    · exact substitute_withNullable_true σ u
  | .null, _ => rfl
  | .error, _ => rfl
  | .never, _ => rfl

theorem substituteAll_substituteAll (hs' : ∀ x, s'.lookup x = (s.lookup x).map (substitute σ)) :
    ∀ l : List Ty, (∀ x ∈ paramNamesAll l, (s.lookup x).isSome) →
      substituteAll σ (substituteAll s l) = substituteAll s' l
  | [], _ => rfl
  | t :: ts, h => by
    simp only [paramNamesAll, List.mem_append] at h
    simp only [substituteAll, substitute_substitute hs' t fun x hx => h x (.inl hx),
      substituteAll_substituteAll hs' ts fun x hx => h x (.inr hx)]

end

end Compose

/-! ## Composing two substitutions -/

mutual

/-- **Two substitutions in a row are their composition**, for every type and any two
substitutions. A parameter that the first leaves alone is left to the second; a nullable one
bound by the first becomes its value made nullable, which the second then substitutes. -/
theorem substitute_substitute_andThen (s₁ s₂ : Subst) :
    ∀ t : Ty, (t.substitute s₁).substitute s₂ = t.substitute (s₁.andThen s₂)
  | .prim _ _ => rfl
  | .obj c args n => by
    simp only [substitute, substituteAll_substituteAll_andThen s₁ s₂ args]
  | .array e n => by
    simp only [substitute, substitute_substitute_andThen s₁ s₂ e]
  | .func ps r n => by
    simp only [substitute, substituteAll_substituteAll_andThen s₁ s₂ ps,
      substitute_substitute_andThen s₁ s₂ r]
  | .param x n => by
    simp only [substitute, Subst.lookup_andThen]
    cases h : s₁.lookup x with
    | none => simp only [substitute, Option.map_none, Option.none_or]
    | some u =>
      cases n
      · rfl
      · exact substitute_withNullable_true s₂ u
  | .null => rfl
  | .error => rfl
  | .never => rfl

theorem substituteAll_substituteAll_andThen (s₁ s₂ : Subst) :
    ∀ l : List Ty, substituteAll s₂ (substituteAll s₁ l) = substituteAll (s₁.andThen s₂) l
  | [] => rfl
  | t :: ts => by
    simp only [substituteAll, substitute_substitute_andThen s₁ s₂ t,
      substituteAll_substituteAll_andThen s₁ s₂ ts]

end

/-- Substitution composes, and marking a type nullable commutes with it. -/
theorem substitution_composes (s₁ s₂ : Subst) (t : Ty) :
    (t.substitute s₁).substitute s₂ = t.substitute (s₁.andThen s₂) ∧
      (t.withNullable true).substitute s₁ = (t.substitute s₁).withNullable true :=
  ⟨substitute_substitute_andThen s₁ s₂ t, substitute_withNullable_true s₁ t⟩

/-! ## The substitution of a class type -/

section SubstOf

variable (env : ClassEnv) (c : ClassId) (n : Bool)

/-- A class type gives each of its class's parameters the argument at the last position of that
name. -/
theorem lookup_substOf (args : List Ty) (x : String) :
    (substOf env (.obj c args n)).lookup x =
      (((env.getD c default).generics.zip args).reverse.find? (·.1 == x)).map (·.2) := by
  simp only [substOf]
  rw [Subst.lookup_foldl_set]
  simp [Subst.lookup]

/-- Substituting a class type's arguments substitutes the values it gives its parameters. -/
theorem lookup_substOf_map (σ : Subst) (args : List Ty) (n' : Bool) (x : String) :
    (substOf env (.obj c (args.map (substitute σ)) n)).lookup x =
      ((substOf env (.obj c args n')).lookup x).map (substitute σ) := by
  rw [lookup_substOf, lookup_substOf, List.zip_map_right, ← List.map_reverse, List.find?_map,
    Option.map_map, Option.map_map]
  rfl

/-- A class type with an argument for each parameter gives every parameter a value. -/
theorem isSome_lookup_substOf {args : List Ty} {x : String}
    (hlen : (env.getD c default).generics.length ≤ args.length)
    (hx : x ∈ (env.getD c default).generics) :
    ((substOf env (.obj c args n)).lookup x).isSome := by
  rw [lookup_substOf, Option.isSome_map, List.find?_isSome]
  obtain ⟨i, hi, hxi⟩ := List.getElem_of_mem hx
  have hzip : i < ((env.getD c default).generics.zip args).length := by
    rw [List.length_zip]
    omega
  refine ⟨((env.getD c default).generics.zip args)[i], List.mem_reverse.2 (List.getElem_mem hzip), ?_⟩
  rw [List.getElem_zip, hxi, beq_self_eq_true]

/-- **Seeing a type from an instance, then substituting, is seeing it from the substituted
instance**, for a type written in the class's parameters and an instance with an argument for
each of them. -/
theorem substitute_substOf_substitute (σ : Subst) {args : List Ty} {t : Ty}
    (hlen : (env.getD c default).generics.length ≤ args.length)
    (hscope : ∀ x ∈ t.paramNames, x ∈ (env.getD c default).generics) :
    (t.substitute (substOf env (.obj c args n))).substitute σ =
      t.substitute (substOf env ((Ty.obj c args n).substitute σ)) := by
  rw [substitute, substituteAll_eq_map]
  apply substitute_substitute
  · intro x
    exact lookup_substOf_map env c n σ args n x
  · intro x hx
    exact isSome_lookup_substOf env c n hlen (hscope x hx)

/-- The own type of a class: its parameters as arguments, in order. -/
def selfType : Ty := .obj c ((env.getD c default).generics.map (.param · false)) false

theorem snd_of_mem_zip_map {f : String → Ty} :
    ∀ {gs : List String} {q : String × Ty}, q ∈ gs.zip (gs.map f) → q.2 = f q.1
  | [], _, h => by simp at h
  | g :: gs, q, h => by
    rw [List.map_cons, List.zip_cons_cons, List.mem_cons] at h
    rcases h with rfl | h
    · rfl
    · exact snd_of_mem_zip_map h

/-- A class's own type gives each of its parameters that parameter. -/
theorem lookup_substOf_selfType {x : String} (hx : x ∈ (env.getD c default).generics) :
    (substOf env (selfType env c)).lookup x = some (.param x false) := by
  have hsome := @isSome_lookup_substOf env c false
    ((env.getD c default).generics.map (.param · false)) x (Nat.le_of_eq (List.length_map _).symm) hx
  rw [lookup_substOf] at hsome
  rw [selfType, lookup_substOf]
  rw [Option.isSome_map] at hsome
  obtain ⟨q, hq⟩ := Option.isSome_iff_exists.1 hsome
  have hqx : q.1 = x := by simpa using List.find?_some hq
  have hmem := List.mem_reverse.1 (List.mem_of_find?_eq_some hq)
  rw [hq, Option.map_some, snd_of_mem_zip_map hmem, hqx]

/-- A class's own type leaves a type written in the class's parameters as it is. -/
theorem substitute_substOf_selfType {t : Ty}
    (hscope : ∀ x ∈ t.paramNames, x ∈ (env.getD c default).generics) :
    t.substitute (substOf env (selfType env c)) = t :=
  substitute_of_lookup_self t fun x hx => lookup_substOf_selfType env c (hscope x hx)

end SubstOf

end Ty

end AmLang
