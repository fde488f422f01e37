import AmLang.Log.Logger
/-!
# What the logger's global level hides

A logger keeps a line when its severity reaches the gate's global level and the level its filter
gives the line's tag: the level named for the tag, or the filter's default. Setting a logger up
with a filter text, and giving it a new one, lower the global level to the lowest level the
filter names, so from then on the global level hides nothing the filter lets through
(`Gate.Lowered`). Setting the level alone moves the global level and the filter's default
together and keeps the levels named for tags: the global level still hides nothing of a tag the
filter names no level for (`Gate.Bounded`), but it hides the lines of a tag named at a lower
level. Set up at `warn` with the filter `a`, which names `trace` for the tag `a`, and then set to
`warn` again, a logger drops the debug lines of `a` that its filter lets through
(`Session.level_reset_hides_traced_tag`).

## Main results

* `Gate.accepts_of_lowered`, `Gate.accepts_of_bounded` — what a gate keeps under each invariant.
* `Step.onGate_bounded`, `Step.onGate_lowered` — what one operation of a session keeps.
* `Session.global_level_hides_named_tags` — after any operations, the global level hides only
  lines of tags the filter names, and after operations that never set the level it hides
  nothing the filter lets through.
* `Gate.setLevel_lowered_iff` — setting the level keeps every line the filter lets through
  exactly when no tag is named below the new level.
-/

namespace AmLang.Log

namespace Filter

/-- The fold that finds the lowest level ends at one of the levels it was given, at or below the
start and every level it passes. -/
theorem foldl_lowest (tags : List (String × Severity)) (low : Severity) :
    let r := tags.foldl (fun low (_, l) => if l.rank < low.rank then l else low) low
    r.rank ≤ low.rank ∧ (∀ p ∈ tags, r.rank ≤ p.2.rank) ∧ (r = low ∨ ∃ p ∈ tags, r = p.2) := by
  induction tags generalizing low with
  | nil => simp
  | cons p tags ih =>
    obtain ⟨tag, l⟩ := p
    simp only [List.foldl_cons]
    -- the fold goes on from the lower of `low` and `l`
    have hm : (if l.rank < low.rank then l else low).rank ≤ low.rank ∧
        (if l.rank < low.rank then l else low).rank ≤ l.rank ∧
        ((if l.rank < low.rank then l else low) = l ∨
          (if l.rank < low.rank then l else low) = low) := by
      split <;> simp <;> omega
    obtain ⟨hle, hall, hmem⟩ := ih (if l.rank < low.rank then l else low)
    generalize (if l.rank < low.rank then l else low) = m at hm hle hall hmem ⊢
    obtain ⟨hml, hmt, hmeq⟩ := hm
    refine ⟨Int.le_trans hle hml, fun p hp => ?_, ?_⟩
    · rcases List.mem_cons.1 hp with rfl | hp
      · exact Int.le_trans hle hmt
      · exact hall p hp
    · rcases hmem with heq | ⟨p, hp, heq⟩
      · rcases hmeq with hl | hlow
        · exact .inr ⟨(tag, l), List.mem_cons_self .., heq.trans hl⟩
        · exact .inl (heq.trans hlow)
      · exact .inr ⟨p, List.mem_cons_of_mem _ hp, heq⟩

variable {f : Filter}

theorem minLevel_le_default (f : Filter) : f.minLevel.rank ≤ f.defaultLevel.rank :=
  (foldl_lowest f.tags f.defaultLevel).1

theorem minLevel_le_of_mem {p : String × Severity} (h : p ∈ f.tags) :
    f.minLevel.rank ≤ p.2.rank :=
  (foldl_lowest f.tags f.defaultLevel).2.1 p h

/-- A level is at or below the lowest one exactly when it is at or below the default and every
level named for a tag. -/
theorem le_minLevel_iff {level : Severity} :
    level.rank ≤ f.minLevel.rank ↔
      level.rank ≤ f.defaultLevel.rank ∧ ∀ p ∈ f.tags, level.rank ≤ p.2.rank := by
  constructor
  · intro h
    exact ⟨Int.le_trans h f.minLevel_le_default, fun p hp => Int.le_trans h (minLevel_le_of_mem hp)⟩
  · rintro ⟨hd, hall⟩
    rcases (foldl_lowest f.tags f.defaultLevel).2.2 with heq | ⟨p, hp, heq⟩
    · rw [minLevel, heq]
      exact hd
    · rw [minLevel, heq]
      exact hall p hp

theorem mem_of_levelOf? {tag : String} {l : Severity} (h : f.levelOf? tag = some l) :
    (tag, l) ∈ f.tags := by
  obtain ⟨p, hp, rfl⟩ := Option.map_eq_some_iff.1 h
  have htag : p.1 = tag := by simpa using List.find?_some hp
  rw [← htag]
  exact List.mem_of_find?_eq_some hp

/-- A line the filter lets through is at or above the lowest level the filter names. -/
theorem minLevel_le_of_accepts {level : Severity} {tag : String}
    (h : f.accepts level tag = true) : f.minLevel.rank ≤ level.rank := by
  have hlevel : ((f.levelOf? tag).getD f.defaultLevel).rank ≤ level.rank := by
    simpa [accepts, Severity.atLeast] using h
  cases hl : f.levelOf? tag with
  | none =>
    rw [hl] at hlevel
    exact Int.le_trans f.minLevel_le_default hlevel
  | some l =>
    rw [hl] at hlevel
    exact Int.le_trans (minLevel_le_of_mem (mem_of_levelOf? hl)) hlevel

end Filter

namespace Gate

/-- The global level hides nothing the filter lets through: it is at most the lowest level the
filter names. -/
def Lowered (g : Gate) : Prop := g.level.rank ≤ g.filter.minLevel.rank

/-- The global level hides nothing of a tag the filter names no level for: it is at most the
filter's default. -/
def Bounded (g : Gate) : Prop := g.level.rank ≤ g.filter.defaultLevel.rank

variable {g : Gate}

theorem Lowered.bounded (h : g.Lowered) : g.Bounded :=
  Int.le_trans h g.filter.minLevel_le_default

/-- Under `Lowered` a gate keeps exactly the lines of a severity other than `off` that its
filter lets through. -/
theorem accepts_of_lowered (h : g.Lowered) (level : Severity) (tag : String) :
    g.accepts level tag = (level != Level.off.severity && g.filter.accepts level tag) := by
  cases hf : g.filter.accepts level tag with
  | false => simp [accepts, hf]
  | true =>
    have hlevel : g.level.rank ≤ level.rank :=
      Int.le_trans h (Filter.minLevel_le_of_accepts hf)
    simp [accepts, hf, Severity.atLeast, hlevel]

/-- Under `Bounded` the global level can hide only lines of a tag the filter names a level for:
those below the global level. -/
theorem accepts_of_bounded (h : g.Bounded) (level : Severity) (tag : String) :
    g.accepts level tag = (level != Level.off.severity && g.filter.accepts level tag &&
      ((g.filter.levelOf? tag).isNone || level.atLeast g.level)) := by
  cases hl : g.filter.levelOf? tag with
  | some l =>
    simp only [accepts, Option.isNone_some, Bool.false_or]
    cases level.atLeast g.level <;> simp
  | none =>
    -- a tag with no level of its own is judged by the default, which the global level is under
    have hf : g.filter.accepts level tag = level.atLeast g.filter.defaultLevel := by
      simp [Filter.accepts, hl]
    cases ha : level.atLeast g.filter.defaultLevel with
    | false => simp [accepts, hf, ha]
    | true =>
      have hlevel : g.level.rank ≤ level.rank := by
        simp only [Severity.atLeast, decide_eq_true_eq] at ha
        exact Int.le_trans h ha
      simp [accepts, hf, Severity.atLeast, hlevel]

/-- A logger starts lowered. -/
theorem default_lowered : ({} : Gate).Lowered := by
  simp [Lowered, Filter.minLevel]

theorem init_lowered (level : Severity) (spec : String) : (Gate.init level spec).Lowered := by
  unfold init
  split
  · simp [Lowered, Filter.minLevel]
  · exact Int.le_refl _

theorem setFilter_lowered (g : Gate) (spec : String) : (g.setFilter spec).Lowered := by
  simp only [Lowered, setFilter]
  split <;> omega

theorem setLevel_bounded (g : Gate) (level : Severity) : (g.setLevel level).Bounded :=
  Int.le_refl _

/-- Setting the level keeps every line the filter lets through exactly when no tag is named
below the new level. -/
theorem setLevel_lowered_iff (g : Gate) (level : Severity) :
    (g.setLevel level).Lowered ↔ ∀ p ∈ g.filter.tags, level.rank ≤ p.2.rank := by
  simp only [Lowered, setLevel, Filter.le_minLevel_iff, Int.le_refl, true_and]

end Gate

namespace Step

/-- What an operation of a session does to the logger's gate: `init` sets up a new one,
`setLevel` and `setFilter` change it, and the others leave it. -/
def onGate : Step → Gate → Gate
  | .init c _, _ => Gate.init c.level c.filter
  | .setLevel l, g => g.setLevel l
  | .setFilter spec, g => g.setFilter spec
  | _, g => g

/-- Whether an operation sets the level. -/
def setsLevel : Step → Bool
  | .setLevel _ => true
  | _ => false

variable {g : Gate}

theorem onGate_bounded (op : Step) (h : g.Bounded) : (op.onGate g).Bounded := by
  cases op with
  | init c file => exact (Gate.init_lowered _ _).bounded
  | setLevel l => exact Gate.setLevel_bounded g l
  | setFilter spec => exact (Gate.setFilter_lowered g spec).bounded
  | _ => exact h

theorem onGate_lowered (op : Step) (h : g.Lowered) (hop : op.setsLevel = false) :
    (op.onGate g).Lowered := by
  cases op with
  | init c file => exact Gate.init_lowered _ _
  | setLevel l => simp [setsLevel] at hop
  | setFilter spec => exact Gate.setFilter_lowered g spec
  | _ => exact h

/-- `Bounded` holds after any operations from a gate where it holds. -/
theorem foldl_onGate_bounded (ops : List Step) (h : g.Bounded) :
    (ops.foldl (fun g op => op.onGate g) g).Bounded := by
  induction ops generalizing g with
  | nil => exact h
  | cons op ops ih => exact ih (op.onGate_bounded h)

/-- `Lowered` holds after operations that never set the level, from a gate where it holds. -/
theorem foldl_onGate_lowered (ops : List Step) (h : g.Lowered)
    (hops : ∀ op ∈ ops, op.setsLevel = false) :
    (ops.foldl (fun g op => op.onGate g) g).Lowered := by
  induction ops generalizing g with
  | nil => exact h
  | cons op ops ih =>
    rw [List.forall_mem_cons] at hops
    exact ih (op.onGate_lowered h hops.1) hops.2

end Step

namespace Session

@[simp] theorem apply_logger (s : Session) (d : Delivery) : (s.apply d).logger = s.logger := by
  cases d <;> rfl

theorem foldl_apply_logger (s : Session) (ds : List Delivery) :
    (ds.foldl apply s).logger = s.logger := by
  induction ds generalizing s with
  | nil => rfl
  | cons d ds ih => rw [List.foldl_cons, ih, apply_logger]

/-- One operation changes the gate as `Step.onGate` says. -/
theorem step_gate (s : Session) (op : Step) :
    (s.step op).1.logger.gate = op.onGate s.logger.gate := by
  cases op with
  | init c file => cases file <;> rfl
  | log level tag message => simp only [step, foldl_apply_logger, Step.onGate]
  | _ => rfl

/-- A run changes the gate as its operations do, one after the other. -/
theorem run_gate (s : Session) (steps : List Step) :
    (s.run steps).1.logger.gate = steps.foldl (fun g op => op.onGate g) s.logger.gate := by
  -- the answers collected along the run do not touch the session
  suffices h : ∀ (s : Session) (answers : Array StepAnswer),
      (steps.foldl (fun (acc : Session × Array StepAnswer) st =>
        ((acc.1.step st).1, acc.2.push (acc.1.step st).2)) (s, answers)).1.logger.gate =
        steps.foldl (fun g op => op.onGate g) s.logger.gate from h s #[]
  induction steps with
  | nil => intro s answers; rfl
  | cons op steps ih =>
    intro s answers
    rw [List.foldl_cons, List.foldl_cons, ih, step_gate]

/-- After any operations from a logger whose global level hides nothing its filter lets
through, the global level hides only lines of tags the filter names a level for, those below
the global level; and after operations that never set the level it hides nothing the filter
lets through. -/
theorem global_level_hides_named_tags (s : Session) (steps : List Step)
    (h : s.logger.gate.Lowered) (level : Severity) (tag : String) :
    let g := (s.run steps).1.logger.gate
    g.accepts level tag = (level != Level.off.severity && g.filter.accepts level tag &&
        ((g.filter.levelOf? tag).isNone || level.atLeast g.level)) ∧
      ((∀ op ∈ steps, op.setsLevel = false) →
        g.accepts level tag = (level != Level.off.severity && g.filter.accepts level tag)) := by
  intro g
  have hg : g = steps.foldl (fun g op => op.onGate g) s.logger.gate := run_gate s steps
  refine ⟨?_, fun hops => ?_⟩
  · rw [hg]
    exact Gate.accepts_of_bounded (Step.foldl_onGate_bounded steps h.bounded) level tag
  · rw [hg]
    exact Gate.accepts_of_lowered (Step.foldl_onGate_lowered steps h hops) level tag

/-- The one-letter text `a` is one piece when split at any other separator. -/
private theorem letter_splitOn {sep : String} (hsep : (sep == "") = false)
    (hne : (String.Pos.Raw.get "a" 0 == String.Pos.Raw.get sep 0) = false) :
    "a".splitOn sep = ["a"] := by
  unfold String.splitOn
  simp only [hsep, Bool.false_eq_true, if_false]
  rw [String.splitOnAux]
  simp only [show String.Pos.Raw.atEnd "a" 0 = false from by decide, hne, Bool.false_eq_true,
    if_false]
  rw [String.splitOnAux]
  simp only [show String.Pos.Raw.atEnd "a" ((String.Pos.Raw.unoffsetBy 0 0).next "a") = true
    from by decide, if_true]
  decide

/-- Setting the logger up at `warn` with the filter `a`, which names `trace` for the tag `a`,
then setting the level to `warn` again. -/
def resetAfterFilter : List Step :=
  [.init { level := Level.warn, filter := "a" } .none, .setLevel Level.warn]

/-- After `resetAfterFilter` the logger drops debug lines of `a` that its filter lets through. -/
theorem level_reset_hides_traced_tag :
    ({} : Session).logger.gate.Lowered ∧
      (({} : Session).run resetAfterFilter).1.logger.gate.filter.accepts Level.debug "a" = true ∧
      (({} : Session).run resetAfterFilter).1.logger.gate.accepts Level.debug "a" = false := by
  have hs : ({} : Session).logger.gate.Lowered := Gate.init_lowered _ _
  have hgate : (({} : Session).run resetAfterFilter).1.logger.gate = {
      level := Level.warn, hasFilter := true,
      filter := { defaultLevel := Level.warn, tags := [("a", Level.trace)] } } := by
    simp only [run_gate, resetAfterFilter, List.foldl_cons, List.foldl_nil, Step.onGate,
      Gate.init, Filter.parse, @letter_splitOn "," (by decide) (by decide), Filter.readItem,
      @letter_splitOn "=" (by decide) (by decide)]
    rfl
  have hfilter :
      (({} : Session).run resetAfterFilter).1.logger.gate.filter.accepts Level.debug "a" = true := by
    rw [hgate]
    decide
  refine ⟨hs, hfilter, ?_⟩
  rw [(global_level_hides_named_tags {} resetAfterFilter hs Level.debug "a").1, hfilter, hgate]
  decide

end Session

end AmLang.Log
