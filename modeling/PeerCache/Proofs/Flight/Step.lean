import PeerCache.Flight.History
/-!
# PeerCache — the steps of a board

What each event can do, said once, and what no event undoes:

* **`call_cases`, `advance_cases`, `finish_cases`, `deliver_cases`** — the inversion of one event:
  it changes nothing, or it applies, and then the board is spelled out.
* **`execution?_…`** — where the executions stand after a change, by their leaders.
* **`Later`** — what stays of a board however it goes on: who has called, which executions there
  are and for which key, every end, every answer. It is kept by a step (`later_step`), so by a
  run (`later_run`).
* **`filter_started`, `filter_ended`** — the runs' ledgers: a caller that has called starts
  nothing, and the ends of one leader over a run are read off the boards at its two ends.
-/

namespace PeerCache

namespace Flight

variable {ι σ α : Type} [DecidableEq ι]

/-! ## One event -/

/-- What a call can do: nothing, if its caller has called before; wait for the execution that holds
the marker; or start its own. -/
theorem call_cases (f : Flight ι σ α) (caller : ι) (key : String) (work : σ) :
    (caller ∈ f.callers ∧ f.call caller key work = f) ∨
    (∃ leader, caller ∉ f.callers ∧ f.markers.find? key = some leader ∧
      f.call caller key work =
        { f with
          waiting := f.waiting ++ [(caller, leader)]
          callers := f.callers ++ [caller] }) ∨
    (caller ∉ f.callers ∧ f.markers.find? key = none ∧
      f.call caller key work =
        { f with
          executions := f.executions ++ [⟨caller, key, .underway work⟩]
          markers := f.markers.insert key caller
          waiting := f.waiting ++ [(caller, caller)]
          callers := f.callers ++ [caller] }) := by
  unfold call
  by_cases hcalled : caller ∈ f.callers
  · exact Or.inl ⟨hcalled, if_pos hcalled⟩
  · right
    rw [if_neg hcalled]
    cases hmark : f.markers.find? key with
    | some leader => exact Or.inl ⟨leader, hcalled, rfl, rfl⟩
    | none => exact Or.inr ⟨hcalled, rfl, rfl⟩

theorem leader_of_execution? {f : Flight ι σ α} {l : ι} {x : Execution ι σ α}
    (h : f.execution? l = some x) : x.leader = l := by
  have hx := List.find?_some h
  rwa [decide_eq_true_eq] at hx

/-- Work is known of a leader exactly if its execution is underway with it. -/
theorem work?_eq_some {f : Flight ι σ α} {l : ι} {w : σ} :
    f.work? l = some w ↔ ∃ key, f.execution? l = some ⟨l, key, .underway w⟩ := by
  unfold work?
  cases hx : f.execution? l with
  | none => simp
  | some x =>
    have hleader := leader_of_execution? hx
    obtain ⟨leader, key, p⟩ := x
    cases p with
    | underway w' =>
      show some w' = some w ↔ _
      constructor
      · intro h
        cases h
        exact ⟨key, by rw [← hleader]⟩
      · rintro ⟨key', h⟩
        cases h
        rfl
    | ended how => simp

/-- A leader has an end exactly if its execution has ended so. -/
theorem ending?_eq_some {f : Flight ι σ α} {l : ι} {how : Ending α} :
    f.ending? l = some how ↔ ∃ key, f.execution? l = some ⟨l, key, .ended how⟩ := by
  unfold ending?
  cases hx : f.execution? l with
  | none => simp
  | some x =>
    have hleader := leader_of_execution? hx
    obtain ⟨leader, key, p⟩ := x
    cases p with
    | underway w => simp
    | ended how' =>
      show some how' = some how ↔ _
      constructor
      · intro h
        cases h
        exact ⟨key, by rw [← hleader]⟩
      · rintro ⟨key', h⟩
        cases h
        rfl

/-- What going on can do: nothing, or the execution of the leader is underway and is put where it
has gone to. -/
theorem advance_cases (f : Flight ι σ α) (leader : ι) (work : σ) :
    f.advance leader work = f ∨
    ∃ key w, f.execution? leader = some ⟨leader, key, .underway w⟩ ∧
      f.advance leader work =
        { f with executions := setProgress leader (.underway work) f.executions } := by
  unfold advance
  cases hwork : f.work? leader with
  | none => exact Or.inl rfl
  | some w =>
    obtain ⟨key, hx⟩ := work?_eq_some.1 hwork
    exact Or.inr ⟨key, w, hx, rfl⟩

/-- What an end can do: nothing, if nothing is underway; or the execution has the end, and its key
has no marker any more. -/
theorem finish_cases (f : Flight ι σ α) (leader : ι) (how : Ending α) :
    (f.work? leader = none ∧ f.finish leader how = f) ∨
    ∃ key w, f.execution? leader = some ⟨leader, key, .underway w⟩ ∧
      f.finish leader how =
        { f with
          executions := setProgress leader (.ended how) f.executions
          markers := f.markers.erase key } := by
  unfold finish work?
  cases hx : f.execution? leader with
  | none => exact Or.inl ⟨rfl, rfl⟩
  | some x =>
    have hleader := leader_of_execution? hx
    obtain ⟨l, key, p⟩ := x
    cases p with
    | underway w => exact Or.inr ⟨key, w, by rw [← hleader], rfl⟩
    | ended how' => exact Or.inl ⟨rfl, rfl⟩

/-- What the progress of an execution leaves alone. -/
theorem advance_frame (f : Flight ι σ α) (leader : ι) (work : σ) :
    (f.advance leader work).callers = f.callers ∧ (f.advance leader work).waiting = f.waiting ∧
      (f.advance leader work).answered = f.answered := by
  rcases advance_cases f leader work with hsame | ⟨key, w, -, hadv⟩
  · rw [hsame]
    exact ⟨rfl, rfl, rfl⟩
  · rw [hadv]
    exact ⟨rfl, rfl, rfl⟩

/-- An end concerns no caller. -/
theorem finish_frame (f : Flight ι σ α) (leader : ι) (how : Ending α) :
    (f.finish leader how).callers = f.callers ∧ (f.finish leader how).waiting = f.waiting ∧
      (f.finish leader how).answered = f.answered := by
  rcases finish_cases f leader how with ⟨-, hsame⟩ | ⟨key, w, -, hfin⟩
  · rw [hsame]
    exact ⟨rfl, rfl, rfl⟩
  · rw [hfin]
    exact ⟨rfl, rfl, rfl⟩

theorem leaderOf?_mem {f : Flight ι σ α} {caller l : ι} (h : f.leaderOf? caller = some l) :
    (caller, l) ∈ f.waiting := by
  unfold leaderOf? at h
  obtain ⟨w, hw, rfl⟩ := Option.map_eq_some_iff.1 h
  have hcaller := List.find?_some hw
  have hmem := List.mem_of_find?_eq_some hw
  rw [decide_eq_true_eq] at hcaller
  rw [← hcaller]
  exact hmem

/-- What a delivery can do: nothing, or a caller that waits for an execution that has ended is
answered by its outcome and waits no more. -/
theorem deliver_cases (f : Flight ι σ α) (caller : ι) :
    f.deliver caller = f ∨
    ∃ l how, (caller, l) ∈ f.waiting ∧ f.ending? l = some how ∧
      f.deliver caller =
        { f with
          waiting := f.waiting.filter fun w => w.1 ≠ caller
          answered := f.answered ++ [(caller, how.outcome)] } := by
  unfold deliver
  cases hl : f.leaderOf? caller with
  | none => exact Or.inl rfl
  | some l =>
    rw [Option.bind_some]
    cases hend : f.ending? l with
    | none => exact Or.inl rfl
    | some how => exact Or.inr ⟨l, how, leaderOf?_mem hl, hend, rfl⟩

/-! ## Executions by their leaders -/

/-- A new progress is found at its leader only. -/
theorem find?_setProgress (leader l : ι) (p : Progress σ α) (xs : List (Execution ι σ α)) :
    (setProgress leader p xs).find? (fun x => x.leader = l) =
      (xs.find? fun x => x.leader = l).map fun x =>
        if l = leader then { x with progress := p } else x := by
  unfold setProgress
  rw [List.find?_map]
  have hsame : ((fun x : Execution ι σ α => decide (x.leader = l)) ∘ fun x =>
      if x.leader = leader then { x with progress := p } else x)
        = fun x => decide (x.leader = l) := by
    funext x
    by_cases hx : x.leader = leader
    · simp [hx]
    · simp [hx]
  rw [hsame]
  cases hfind : xs.find? fun x => x.leader = l with
  | none => rfl
  | some x =>
    have hl := List.find?_some hfind
    rw [decide_eq_true_eq] at hl
    simp only [Option.map_some, hl]

theorem execution?_setProgress (f : Flight ι σ α) (leader l : ι) (p : Progress σ α) :
    { f with executions := setProgress leader p f.executions }.execution? l =
      (f.execution? l).map fun x => if l = leader then { x with progress := p } else x :=
  find?_setProgress leader l p f.executions

/-- An execution at the end is found if its leader has no earlier one. -/
theorem execution?_push (f : Flight ι σ α) (x : Execution ι σ α) (l : ι) :
    { f with executions := f.executions ++ [x] }.execution? l =
      (f.execution? l).or (if x.leader = l then some x else none) := by
  unfold execution?
  rw [List.find?_append]
  by_cases hx : x.leader = l
  · simp [hx]
  · simp [hx]

/-- An execution that starts has no end, and the ends of the others stay. -/
theorem ending?_push (f : Flight ι σ α) (caller : ι) (key : String) (work : σ) (l : ι) :
    ({ f with executions := f.executions ++ [⟨caller, key, .underway work⟩] } :
      Flight ι σ α).ending? l = f.ending? l := by
  unfold ending?
  rw [execution?_push]
  cases f.execution? l with
  | some x => rfl
  | none =>
    rw [Option.none_or]
    by_cases hl : caller = l
    · rw [if_pos hl]
    · rw [if_neg hl]

/-- A new progress of one leader ends no other execution. -/
theorem ending?_setProgress_of_ne (f : Flight ι σ α) {leader l : ι} (hl : l ≠ leader)
    (p : Progress σ α) :
    { f with executions := setProgress leader p f.executions }.ending? l = f.ending? l := by
  unfold ending?
  rw [execution?_setProgress]
  cases f.execution? l with
  | none => rfl
  | some x => rw [Option.map_some, if_neg hl]

/-- What is underway has not ended. -/
theorem ending?_underway {f : Flight ι σ α} {l : ι} {key : String} {w : σ}
    (hx : f.execution? l = some ⟨l, key, .underway w⟩) : f.ending? l = none := by
  unfold ending?
  rw [hx]

/-- The leader itself has the new progress. -/
theorem execution?_setProgress_self {f : Flight ι σ α} {l : ι} {x : Execution ι σ α}
    (hx : f.execution? l = some x) (p : Progress σ α) :
    { f with executions := setProgress l p f.executions }.execution? l
      = some { x with progress := p } := by
  rw [execution?_setProgress, hx, Option.map_some, if_pos rfl]

/-! ## What stays

`Later f g` is the part of a board that only grows. An execution keeps its leader and its key; once
it has ended, it keeps its end too. -/

/-- Nothing of board `f` that callers may rely on is lost in board `g`. -/
structure Later (f g : Flight ι σ α) : Prop where
  callers : ∀ c ∈ f.callers, c ∈ g.callers
  execution : ∀ l x, f.execution? l = some x →
    ∃ p, g.execution? l = some { x with progress := p } ∧
      (x.progress.isUnderway = false → p = x.progress)
  answered : ∀ a ∈ f.answered, a ∈ g.answered

theorem Later.refl (f : Flight ι σ α) : Later f f where
  callers := fun _ hc => hc
  execution := fun _ x hx => ⟨x.progress, hx, fun _ => rfl⟩
  answered := fun _ ha => ha

theorem Later.trans {f g h : Flight ι σ α} (hfg : Later f g) (hgh : Later g h) : Later f h where
  callers := fun c hc => hgh.callers c (hfg.callers c hc)
  execution := by
    intro l x hx
    obtain ⟨p, hp, hkeep⟩ := hfg.execution l x hx
    obtain ⟨q, hq, hkeep'⟩ := hgh.execution l _ hp
    refine ⟨q, hq, fun hended => ?_⟩
    have hpx := hkeep hended
    have hqp := hkeep' (by rw [hpx]; exact hended)
    rw [hqp, hpx]
  answered := fun a ha => hgh.answered a (hfg.answered a ha)

/-- A leader keeps the key of its execution. -/
theorem Later.key? {f g : Flight ι σ α} (h : Later f g) {l : ι} {key : String}
    (hkey : f.key? l = some key) : g.key? l = some key := by
  obtain ⟨x, hx, rfl⟩ := Option.map_eq_some_iff.1 hkey
  obtain ⟨p, hp, -⟩ := h.execution l x hx
  unfold Flight.key?
  rw [hp]
  rfl

/-- A leader keeps the end that its execution has come to. -/
theorem Later.ending? {f g : Flight ι σ α} (h : Later f g) {l : ι} {how : Ending α}
    (hend : f.ending? l = some how) : g.ending? l = some how := by
  obtain ⟨key, hx⟩ := ending?_eq_some.1 hend
  obtain ⟨p, hp, hkeep⟩ := h.execution l _ hx
  have hpe := hkeep rfl
  subst hpe
  exact ending?_eq_some.2 ⟨key, hp⟩

/-- With an execution more, and whoever has called more, nothing is lost. -/
theorem later_push {f g : Flight ι σ α} (x : Execution ι σ α)
    (hexec : g.executions = f.executions ++ [x]) (hcallers : ∀ c ∈ f.callers, c ∈ g.callers)
    (hanswered : g.answered = f.answered) : Later f g where
  callers := hcallers
  execution := by
    intro l y hy
    refine ⟨y.progress, ?_, fun _ => rfl⟩
    have hpush := execution?_push f x l
    rw [hy, Option.some_or] at hpush
    unfold execution? at hpush ⊢
    rw [hexec]
    exact hpush
  answered := by
    intro a ha
    rw [hanswered]
    exact ha

/-- An execution that is underway may be given any progress. -/
theorem later_setProgress {f g : Flight ι σ α} {leader : ι} {key : String} {w : σ}
    {p : Progress σ α} (hx : f.execution? leader = some ⟨leader, key, .underway w⟩)
    (hexec : g.executions = setProgress leader p f.executions) (hcallers : g.callers = f.callers)
    (hanswered : g.answered = f.answered) : Later f g where
  callers := by
    intro c hc
    rw [hcallers]
    exact hc
  execution := by
    intro l y hy
    have hset := execution?_setProgress f leader l p
    unfold execution? at hset
    rw [← hexec] at hset
    change g.execution? l = _ at hset
    rw [hset]
    change ∃ q, Option.map _ (f.execution? l) = _ ∧ _
    rw [hy, Option.map_some]
    by_cases hl : l = leader
    · subst hl
      rw [hx] at hy
      cases hy
      rw [if_pos rfl]
      refine ⟨p, rfl, fun hended => ?_⟩
      -- the execution was underway, so there is no end to keep
      cases hended
    · rw [if_neg hl]
      exact ⟨y.progress, rfl, fun _ => rfl⟩
  answered := by
    intro a ha
    rw [hanswered]
    exact ha

/-! ## One event, and a run -/

/-- An event loses nothing. -/
theorem later_step (f : Flight ι σ α) (e : Event ι σ α) : Later f (f.step e) := by
  -- Lists only grow at the end here, and an execution keeps its leader and its key.
  cases e with
  | call caller key work =>
    show Later f (f.call caller key work)
    rcases call_cases f caller key work with ⟨-, hsame⟩ | ⟨l, -, -, hjoin⟩ | ⟨-, -, hnew⟩
    · rw [hsame]
      exact Later.refl f
    · rw [hjoin]
      exact ⟨fun c hc => List.mem_append_left _ hc, (Later.refl f).execution, fun _ ha => ha⟩
    · rw [hnew]
      exact later_push ⟨caller, key, .underway work⟩ rfl
        (fun c hc => List.mem_append_left _ hc) rfl
  | advance leader work =>
    show Later f (f.advance leader work)
    rcases advance_cases f leader work with hsame | ⟨key, w, hx, hadv⟩
    · rw [hsame]
      exact Later.refl f
    · rw [hadv]
      exact later_setProgress hx rfl rfl rfl
  | finish leader how =>
    show Later f (f.finish leader how)
    rcases finish_cases f leader how with ⟨-, hsame⟩ | ⟨key, w, hx, hfin⟩
    · rw [hsame]
      exact Later.refl f
    · rw [hfin]
      exact later_setProgress hx rfl rfl rfl
  | deliver caller =>
    show Later f (f.deliver caller)
    rcases deliver_cases f caller with hsame | ⟨l, how, -, -, hdel⟩
    · rw [hsame]
      exact Later.refl f
    · rw [hdel]
      exact ⟨fun _ hc => hc, (Later.refl f).execution, fun _ ha => List.mem_append_left _ ha⟩
  | abandon caller => exact ⟨fun _ hc => hc, (Later.refl f).execution, fun _ ha => ha⟩

theorem later_run (f : Flight ι σ α) (events : List (Event ι σ α)) : Later f (f.run events) := by
  induction events generalizing f with
  | nil => exact Later.refl f
  | cons e es ih => exact (later_step f e).trans (ih (f.step e))

/-! ## Work that is new -/

/-- What an execution is doing, it did before, or the event says so. -/
theorem work?_step {f : Flight ι σ α} {e : Event ι σ α} {l : ι} {w : σ}
    (h : (f.step e).work? l = some w) :
    f.work? l = some w ∨ (e = .advance l w ∧ ∃ v, f.work? l = some v) ∨
      (f.execution? l = none ∧ ∃ key, e = .call l key w) := by
  cases e with
  | call caller key work =>
    have h : (f.call caller key work).work? l = some w := h
    rcases call_cases f caller key work with ⟨-, hsame⟩ | ⟨m, -, -, hjoin⟩ | ⟨-, -, hnew⟩
    · rw [hsame] at h
      exact Or.inl h
    · rw [hjoin] at h
      exact Or.inl h
    -- A new execution is found only where there was none before, and then it is the caller's own.
    · rw [hnew] at h
      obtain ⟨k, hx⟩ := work?_eq_some.1 h
      have hpush := (execution?_push f ⟨caller, key, .underway work⟩ l).symm.trans hx
      cases hold : f.execution? l with
      | some x =>
        rw [hold, Option.some_or] at hpush
        exact Or.inl (work?_eq_some.2 ⟨k, hold.trans hpush⟩)
      | none =>
        rw [hold, Option.none_or] at hpush
        by_cases hl : caller = l
        · rw [if_pos hl] at hpush
          cases hpush
          exact Or.inr (Or.inr ⟨rfl, _, rfl⟩)
        · rw [if_neg hl] at hpush
          cases hpush
  | advance leader work =>
    have h : (f.advance leader work).work? l = some w := h
    rcases advance_cases f leader work with hsame | ⟨key, v, hx, hadv⟩
    · rw [hsame] at h
      exact Or.inl h
    · rw [hadv] at h
      obtain ⟨k, hy⟩ := work?_eq_some.1 h
      rw [execution?_setProgress] at hy
      by_cases hl : l = leader
      · subst hl
        rw [hx, Option.map_some, if_pos rfl] at hy
        cases hy
        exact Or.inr (Or.inl ⟨rfl, v, work?_eq_some.2 ⟨key, hx⟩⟩)
      · simp only [if_neg hl, Option.map_id'] at hy
        exact Or.inl (work?_eq_some.2 ⟨k, hy⟩)
  | finish leader how =>
    have h : (f.finish leader how).work? l = some w := h
    rcases finish_cases f leader how with ⟨-, hsame⟩ | ⟨key, v, hx, hfin⟩
    · rw [hsame] at h
      exact Or.inl h
    -- The execution that ends does no work any more; another one does what it did.
    · rw [hfin] at h
      obtain ⟨k, hy⟩ := work?_eq_some.1 h
      have hset := (execution?_setProgress f leader l (.ended how)).symm.trans hy
      by_cases hl : l = leader
      · subst hl
        rw [hx, Option.map_some, if_pos rfl] at hset
        cases hset
      · simp only [if_neg hl, Option.map_id'] at hset
        exact Or.inl (work?_eq_some.2 ⟨k, hset⟩)
  | deliver caller =>
    have h : (f.deliver caller).work? l = some w := h
    rcases deliver_cases f caller with hsame | ⟨m, how, -, -, hdel⟩
    · rw [hsame] at h
      exact Or.inl h
    · rw [hdel] at h
      exact Or.inl h
  | abandon caller => exact Or.inl h

/-- Who has called and leads no execution will never lead one. -/
theorem execution?_step_eq_none {f : Flight ι σ α} {c : ι} (hc : c ∈ f.callers)
    (hnone : f.execution? c = none) (e : Event ι σ α) : (f.step e).execution? c = none := by
  cases e with
  | call caller key work =>
    show (f.call caller key work).execution? c = none
    rcases call_cases f caller key work with ⟨-, hsame⟩ | ⟨l, -, -, hjoin⟩ | ⟨hcaller, -, hnew⟩
    · rw [hsame]
      exact hnone
    · rw [hjoin]
      exact hnone
    -- Whoever starts an execution has not called before.
    · have hpush := execution?_push f ⟨caller, key, .underway work⟩ c
      have hne : caller ≠ c := fun h => hcaller (h ▸ hc)
      rw [hnone, Option.none_or, if_neg hne] at hpush
      rw [hnew]
      exact hpush
  | advance leader work =>
    show (f.advance leader work).execution? c = none
    rcases advance_cases f leader work with hsame | ⟨key, w, -, hadv⟩
    · rw [hsame]
      exact hnone
    · rw [hadv, execution?_setProgress, hnone]
      rfl
  | finish leader how =>
    show (f.finish leader how).execution? c = none
    rcases finish_cases f leader how with ⟨-, hsame⟩ | ⟨key, w, -, hfin⟩
    · rw [hsame]
      exact hnone
    · have hset := execution?_setProgress f leader c (.ended how)
      rw [hnone, Option.map_none] at hset
      rw [hfin]
      exact hset
  | deliver caller =>
    show (f.deliver caller).execution? c = none
    rcases deliver_cases f caller with hsame | ⟨l, how, -, -, hdel⟩
    · rw [hsame]
      exact hnone
    · rw [hdel]
      exact hnone
  | abandon caller => exact hnone

/-- Who has called without an execution of its own never gets one: each caller calls once. -/
theorem execution?_run_eq_none {f : Flight ι σ α} {c : ι} (hc : c ∈ f.callers)
    (hnone : f.execution? c = none) (events : List (Event ι σ α)) :
    (f.run events).execution? c = none := by
  induction events generalizing f with
  | nil => exact hnone
  | cons e es ih =>
    exact ih ((later_step f e).callers c hc) (execution?_step_eq_none hc hnone e)

/-! ## The ledgers -/

theorem run_append (f : Flight ι σ α) (before after : List (Event ι σ α)) :
    f.run (before ++ after) = (f.run before).run after :=
  List.foldl_append

theorem started_append (f : Flight ι σ α) (before after : List (Event ι σ α)) :
    f.started (before ++ after) = f.started before ++ (f.run before).started after := by
  induction before generalizing f with
  | nil => rfl
  | cons e es ih =>
    show f.starts e ++ (f.step e).started (es ++ after) = _
    rw [ih (f.step e), ← List.append_assoc]
    rfl

/-- What starts at an event has its caller as its leader, and that caller has not called before. -/
theorem mem_starts {f : Flight ι σ α} {e : Event ι σ α} {x : Execution ι σ α}
    (h : x ∈ f.starts e) : x.leader ∉ f.callers ∧ x.leader ∈ (f.step e).callers := by
  cases e with
  | call caller key work =>
    show _ ∧ x.leader ∈ (f.call caller key work).callers
    unfold starts at h
    rcases call_cases f caller key work with ⟨hc, -⟩ | ⟨l, hc, hmark, -⟩ | ⟨hc, hmark, hnew⟩
    · simp [hc] at h
    · simp [hc, hmark] at h
    · rw [hnew]
      simp [hc, hmark] at h
      subst h
      exact ⟨hc, List.mem_append_right _ (List.mem_singleton.2 rfl)⟩
  | advance leader work => cases h
  | finish leader how => cases h
  | deliver caller => cases h
  | abandon caller => cases h

/-- The leader of what is started has called. -/
theorem mem_started {f : Flight ι σ α} {events : List (Event ι σ α)} {x : Execution ι σ α}
    (h : x ∈ f.started events) : x.leader ∈ (f.run events).callers := by
  induction events generalizing f with
  | nil => cases h
  | cons e es ih =>
    rcases List.mem_append.1 h with h | h
    · exact (later_run (f.step e) es).callers _ (mem_starts h).2
    · exact ih h

/-- Who has called already starts nothing more. -/
theorem filter_started {f : Flight ι σ α} {c : ι} (hc : c ∈ f.callers)
    (events : List (Event ι σ α)) : (f.started events).filter (fun x => x.leader = c) = [] := by
  induction events generalizing f with
  | nil => rfl
  | cons e es ih =>
    show (f.starts e ++ (f.step e).started es).filter _ = []
    rw [List.filter_append, ih ((later_step f e).callers c hc), List.append_nil]
    refine List.filter_eq_nil_iff.2 ?_
    intro x hx hxc
    have hleader : x.leader = c := of_decide_eq_true hxc
    exact (mem_starts hx).1 (hleader ▸ hc)

/-! ## Endings, one by one -/

/-- The end that leader `l` comes to between a board with the first ending and a later one with
the second. -/
def endedBetween (l : ι) : Option (Ending α) → Option (Ending α) → List (ι × Ending α)
  | none, some how => [(l, how)]
  | _, _ => []

omit [DecidableEq ι] in
theorem endedBetween_self (l : ι) (o : Option (Ending α)) : endedBetween l o o = [] := by
  cases o with
  | none => rfl
  | some how => rfl

omit [DecidableEq ι] in
/-- Ends in two parts of a run are the ends in all of it, as an end stands. -/
theorem endedBetween_append (l : ι) {a b c : Option (Ending α)}
    (hab : ∀ how, a = some how → b = some how) (hbc : ∀ how, b = some how → c = some how) :
    endedBetween l a b ++ endedBetween l b c = endedBetween l a c := by
  cases a with
  | some how =>
    have hb := hab how rfl
    subst hb
    have hc := hbc how rfl
    subst hc
    rfl
  | none =>
    cases b with
    | none => rw [endedBetween_self, List.nil_append]
    | some how =>
      have hc := hbc how rfl
      subst hc
      rfl

/-- The end of what is underway is one end. -/
theorem ends_finish {f : Flight ι σ α} {l : ι} {w : σ} (hwork : f.work? l = some w)
    (how : Ending α) : f.ends (.finish l how) = [(l, how)] := by
  simp only [ends, hwork]

theorem ends_finish_of_none {f : Flight ι σ α} {l : ι} (hwork : f.work? l = none)
    (how : Ending α) : f.ends (.finish l how) = [] := by
  simp only [ends, hwork]

/-- Only a finish that applies ends anything. -/
theorem finish_of_mem_ends {f : Flight ι σ α} {e : Event ι σ α} {l : ι} {how : Ending α}
    (h : (l, how) ∈ f.ends e) : e = .finish l how ∧ ∃ w, f.work? l = some w := by
  cases e with
  | finish leader how' =>
    cases hwork : f.work? leader with
    | none =>
      rw [ends_finish_of_none hwork] at h
      cases h
    | some w =>
      rw [ends_finish hwork] at h
      cases List.mem_singleton.1 h
      exact ⟨rfl, w, hwork⟩
  | call caller key work => cases h
  | advance leader work => cases h
  | deliver caller => cases h
  | abandon caller => cases h

/-- For one leader, an event ends what has an end after it and none before. -/
theorem filter_ends (f : Flight ι σ α) (e : Event ι σ α) (l : ι) :
    (f.ends e).filter (fun x => x.1 = l) = endedBetween l (f.ending? l) ((f.step e).ending? l) := by
  -- only a finish that applies ends anything; every other event leaves all endings as they are
  have hkeep : f.ends e = [] → (f.step e).ending? l = f.ending? l →
      (f.ends e).filter (fun x => x.1 = l)
        = endedBetween l (f.ending? l) ((f.step e).ending? l) := by
    intro hnone hsame
    rw [hnone, hsame, endedBetween_self]
    rfl
  cases e with
  | call caller key work =>
    refine hkeep rfl ?_
    show (f.call caller key work).ending? l = f.ending? l
    rcases call_cases f caller key work with ⟨-, hsame⟩ | ⟨m, -, -, hjoin⟩ | ⟨-, -, hnew⟩
    · rw [hsame]
    · rw [hjoin]
      rfl
    · rw [hnew]
      exact ending?_push f caller key work l
  | advance leader work =>
    refine hkeep rfl ?_
    show (f.advance leader work).ending? l = f.ending? l
    rcases advance_cases f leader work with hsame | ⟨key, w, hx, hadv⟩
    · rw [hsame]
    · rw [hadv]
      by_cases hl : l = leader
      · subst hl
        rw [ending?_underway hx]
        exact ending?_underway (execution?_setProgress_self hx (.underway work))
      · exact ending?_setProgress_of_ne f hl _
  | finish leader how =>
    rcases finish_cases f leader how with ⟨hwork, hsame⟩ | ⟨key, w, hx, hfin⟩
    · exact hkeep (ends_finish_of_none hwork how) (congrArg (fun g => g.ending? l) hsame)
    · show _ = endedBetween l (f.ending? l) ((f.finish leader how).ending? l)
      rw [ends_finish (work?_eq_some.2 ⟨key, hx⟩)]
      by_cases hl : l = leader
      · subst hl
        have hafter : (f.finish l how).ending? l = some how := by
          rw [hfin]
          exact ending?_eq_some.2 ⟨key, execution?_setProgress_self hx (.ended how)⟩
        rw [hafter, ending?_underway hx]
        exact List.filter_cons_of_pos (decide_eq_true rfl)
      · have hafter : (f.finish leader how).ending? l = f.ending? l := by
          rw [hfin]
          exact ending?_setProgress_of_ne f hl (.ended how)
        rw [hafter, endedBetween_self]
        exact List.filter_cons_of_neg (by simpa using fun h => hl h.symm)
  | deliver caller =>
    refine hkeep rfl ?_
    show (f.deliver caller).ending? l = f.ending? l
    rcases deliver_cases f caller with hsame | ⟨m, how, -, -, hdel⟩
    · rw [hsame]
    · rw [hdel]
      rfl
  | abandon caller => exact hkeep rfl rfl

/-- How an execution has ended, it had ended before, or the event says so. -/
theorem ending?_step {f : Flight ι σ α} {e : Event ι σ α} {l : ι} {how : Ending α}
    (h : (f.step e).ending? l = some how) : f.ending? l = some how ∨ e = .finish l how := by
  cases hold : f.ending? l with
  | some how' =>
    rw [(later_step f e).ending? hold] at h
    exact Or.inl h
  | none =>
    right
    have hends := filter_ends f e l
    rw [hold, h] at hends
    have hin : (l, how) ∈ (f.ends e).filter (fun x => x.1 = l) := by
      rw [hends]
      exact List.mem_singleton.2 rfl
    exact (finish_of_mem_ends (List.mem_filter.1 hin).1).1

/-- For one leader, a run ends what has an end after it and none before; so each execution ends once
at most. -/
theorem filter_ended (f : Flight ι σ α) (events : List (Event ι σ α)) (l : ι) :
    (f.ended events).filter (fun x => x.1 = l)
      = endedBetween l (f.ending? l) ((f.run events).ending? l) := by
  induction events generalizing f with
  | nil => exact (endedBetween_self l _).symm
  | cons e es ih =>
    show (f.ends e ++ (f.step e).ended es).filter _ = _
    rw [List.filter_append, filter_ends, ih (f.step e)]
    refine endedBetween_append l ?_ ?_
    · intro how hend
      exact (later_step f e).ending? hend
    · intro how hend
      exact (later_run (f.step e) es).ending? hend

end Flight

end PeerCache
