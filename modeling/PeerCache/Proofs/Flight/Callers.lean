import PeerCache.Proofs.Flight.Invariant
/-!
# PeerCache — a board, caller by caller

A board seen through one caller is its execution, the leader it waits for and what it was answered.
For each event there is one equation or one frame for each of the three:

* **`execution?_call`**, **`leaderOf?_call`**, **`find?_markers_call`** — a first call sets up the
  caller's own wait and, without a marker, its own execution; everybody else keeps what they have.
* **`execution?_advance_of_ne`**, **`execution?_finish_of_ne`** — an execution that goes on or ends
  touches no other execution.
* **`leaderOf?_deliver`**, **`answer?_deliver`**, **`leaderOf?_abandon`** — the end of a wait is
  seen by the caller who waited.
* **`waits_or_answered`** — a wait ends with an answer, or because the caller gives up.
* **`SameWork.step`** — none of this depends on who else waits or has been answered.
-/

namespace PeerCache

namespace Flight

variable {ι σ α : Type} [DecidableEq ι]

/-! ## Whom a caller is attached to -/

omit [DecidableEq ι] in
/-- A call for a key in flight attaches the caller to the execution that holds the marker. -/
theorem attached_of_marker {f : Flight ι σ α} {key : String} {l : ι}
    (hmark : f.markers.find? key = some l) (caller : ι) : f.attached caller key = l := by
  unfold attached
  rw [hmark]
  rfl

omit [DecidableEq ι] in
/-- A call for a key that is not in flight attaches the caller to its own execution. -/
theorem attached_of_no_marker {f : Flight ι σ α} {key : String}
    (hmark : f.markers.find? key = none) (caller : ι) : f.attached caller key = caller := by
  unfold attached
  rw [hmark]
  rfl

/-! ## Waits and answers of a sound board -/

/-- Who has not called waits for nobody. -/
theorem Sound.leaderOf?_eq_none {f : Flight ι σ α} (hf : Sound f) {c : ι} (hc : c ∉ f.callers) :
    f.leaderOf? c = none := by
  cases hwait : f.leaderOf? c with
  | none => rfl
  | some l => exact absurd (hf.waits _ (leaderOf?_mem hwait)).1 hc

/-- The answer that is read off a board is one that was given on it. -/
theorem answer?_mem {f : Flight ι σ α} {c : ι} {o : Outcome α} (h : f.answer? c = some o) :
    (c, o) ∈ f.answered := by
  obtain ⟨a, ha, rfl⟩ := Option.map_eq_some_iff.1 h
  have hc := List.find?_some ha
  rw [decide_eq_true_eq] at hc
  rw [← hc]
  exact List.mem_of_find?_eq_some ha

/-- Who has been answered does not wait. -/
theorem Sound.leaderOf?_of_answer? {f : Flight ι σ α} (hf : Sound f) {c : ι} {o : Outcome α}
    (h : f.answer? c = some o) : f.leaderOf? c = none := by
  cases hwait : f.leaderOf? c with
  | none => rfl
  | some l =>
    have hdisjoint := List.disjoint_of_nodup_append hf.once
    have hw : c ∈ f.waiting.map Prod.fst := List.mem_map.2 ⟨_, leaderOf?_mem hwait, rfl⟩
    exact absurd (List.mem_map.2 ⟨_, answer?_mem h, rfl⟩) (hdisjoint hw)

/-! ## Calls -/

/-- A call adds at most the caller's own execution, and only as a first call for a key that is not
in flight. -/
theorem execution?_call {f : Flight ι σ α} (hf : Sound f) (caller : ι) (key : String) (work : σ)
    (c : ι) :
    (f.call caller key work).execution? c =
      if c = caller ∧ caller ∉ f.callers ∧ f.markers.find? key = none then
        some ⟨caller, key, .underway work⟩
      else f.execution? c := by
  rcases call_cases f caller key work with
    ⟨hcalled, hsame⟩ | ⟨l, hc, hmark, hjoin⟩ | ⟨hc, hmark, hnew⟩
  · rw [hsame, if_neg fun h => h.2.1 hcalled]
  · have hsome : ¬ f.markers.find? key = none := by
      rw [hmark]
      exact Option.some_ne_none l
    rw [hjoin, if_neg fun h => hsome h.2.2]
    rfl
  · have hpush := execution?_push f ⟨caller, key, .underway work⟩ c
    rw [hnew]
    by_cases hcaller : c = caller
    · subst hcaller
      rw [hf.execution?_eq_none hc, Option.none_or, if_pos rfl] at hpush
      rw [if_pos ⟨rfl, hc, hmark⟩]
      exact hpush
    · rw [if_neg fun h => hcaller h.symm, Option.or_none] at hpush
      rw [if_neg fun h => hcaller h.1]
      exact hpush

/-- The leader that a caller waits for, once one more caller has begun to wait. -/
theorem find?_waiting_push (ws : List (ι × ι)) (caller l c : ι)
    (hnone : ws.find? (fun w => w.1 = caller) = none) :
    ((ws ++ [(caller, l)]).find? fun w => w.1 = c).map Prod.snd =
      if c = caller then some l else (ws.find? fun w => w.1 = c).map Prod.snd := by
  rw [List.find?_append]
  by_cases hc : c = caller
  · subst hc
    simp [hnone]
  · have hne : ¬ caller = c := fun h => hc h.symm
    simp [hc, hne]

/-- A call lets at most the caller itself wait, for the execution it is attached to. -/
theorem leaderOf?_call {f : Flight ι σ α} (hf : Sound f) (caller : ι) (key : String) (work : σ)
    (c : ι) :
    (f.call caller key work).leaderOf? c =
      if c = caller ∧ caller ∉ f.callers then some (f.attached caller key)
      else f.leaderOf? c := by
  have hpush : ∀ l, caller ∉ f.callers →
      ((f.waiting ++ [(caller, l)]).find? fun w => w.1 = c).map Prod.snd =
        if c = caller ∧ caller ∉ f.callers then some l else f.leaderOf? c := by
    intro l hc
    rw [find?_waiting_push _ _ _ _ (Option.map_eq_none_iff.1 (hf.leaderOf?_eq_none hc))]
    simp only [hc, not_false_eq_true, and_true]
    rfl
  rcases call_cases f caller key work with
    ⟨hcalled, hsame⟩ | ⟨l, hc, hmark, hjoin⟩ | ⟨hc, hmark, hnew⟩
  · rw [hsame, if_neg fun h => h.2 hcalled]
  · rw [hjoin, attached_of_marker hmark]
    exact hpush l hc
  · rw [hnew, attached_of_no_marker hmark]
    exact hpush caller hc

theorem answer?_call (f : Flight ι σ α) (caller : ι) (key : String) (work : σ) (c : ι) :
    (f.call caller key work).answer? c = f.answer? c := by
  unfold answer?
  rcases call_cases f caller key work with ⟨-, hsame⟩ | ⟨l, -, -, hjoin⟩ | ⟨-, -, hnew⟩
  · rw [hsame]
  · rw [hjoin]
  · rw [hnew]

/-- After a call, the caller has called. -/
theorem mem_callers_call (f : Flight ι σ α) (caller : ι) (key : String) (work : σ) (c : ι) :
    c ∈ (f.call caller key work).callers ↔ c ∈ f.callers ∨ c = caller := by
  rcases call_cases f caller key work with ⟨hcalled, hsame⟩ | ⟨l, -, -, hjoin⟩ | ⟨-, -, hnew⟩
  · rw [hsame]
    constructor
    · exact Or.inl
    · rintro (hc | rfl)
      · exact hc
      · exact hcalled
  · rw [hjoin]
    simp only [List.mem_append, List.mem_singleton]
  · rw [hnew]
    simp only [List.mem_append, List.mem_singleton]

/-- A second call of the same caller does nothing. -/
theorem call_of_mem {f : Flight ι σ α} {caller : ι} (hc : caller ∈ f.callers) (key : String)
    (work : σ) : f.call caller key work = f :=
  if_pos hc

/-- After a first call its key has a marker, with the leader that the caller is attached to. -/
theorem find?_markers_call (f : Flight ι σ α) (caller : ι) (key : String) (work : σ)
    (k : String) :
    (f.call caller key work).markers.find? k =
      if k = key ∧ caller ∉ f.callers then some (f.attached caller key)
      else f.markers.find? k := by
  rcases call_cases f caller key work with
    ⟨hcalled, hsame⟩ | ⟨l, hc, hmark, hjoin⟩ | ⟨hc, hmark, hnew⟩
  · rw [hsame, if_neg fun h => h.2 hcalled]
  · rw [hjoin, attached_of_marker hmark]
    by_cases hk : k = key
    · rw [if_pos ⟨hk, hc⟩, hk]
      exact hmark
    · rw [if_neg fun h => hk h.1]
  · rw [hnew, attached_of_no_marker hmark]
    simp only [hc, not_false_eq_true, and_true]
    exact Table.find?_insert f.markers key k caller

/-! ## Executions that go on or end -/

/-- An execution that goes on leaves the others alone. -/
theorem execution?_advance_of_ne (f : Flight ι σ α) {leader c : ι} (hc : c ≠ leader) (work : σ) :
    (f.advance leader work).execution? c = f.execution? c := by
  rcases advance_cases f leader work with hsame | ⟨key, w, -, hadv⟩
  · rw [hsame]
  · rw [hadv, execution?_setProgress]
    simp only [if_neg hc, Option.map_id']

theorem execution?_finish_of_ne (f : Flight ι σ α) {leader c : ι} (hc : c ≠ leader)
    (how : Ending α) : (f.finish leader how).execution? c = f.execution? c := by
  rcases finish_cases f leader how with ⟨-, hsame⟩ | ⟨key, w, -, hfin⟩
  · rw [hsame]
  · have hset := execution?_setProgress f leader c (.ended how)
    simp only [if_neg hc, Option.map_id'] at hset
    rw [hfin]
    exact hset

theorem work?_deliver (f : Flight ι σ α) (caller l : ι) :
    (f.deliver caller).work? l = f.work? l := by
  rcases deliver_cases f caller with h | ⟨l', how, -, -, h⟩
  · rw [h]
  · rw [h]
    rfl

/-- An execution that has ended does no more work. -/
theorem work?_finish_self (f : Flight ι σ α) (l : ι) (how : Ending α) :
    (f.finish l how).work? l = none := by
  rcases finish_cases f l how with ⟨hnone, hsame⟩ | ⟨key, w, hx, hfin⟩
  · rw [hsame]
    exact hnone
  · have hended : (f.finish l how).execution? l = some ⟨l, key, .ended how⟩ := by
      rw [hfin]
      exact execution?_setProgress_self hx (.ended how)
    unfold work?
    rw [hended]

/-- What an execution is doing, it does until an event goes on with it or ends it. -/
theorem work?_kept {f : Flight ι σ α} {l : ι} {w : σ} (h : f.work? l = some w) {e : Event ι σ α}
    (hadvance : ∀ v, e ≠ .advance l v) (hfinish : ∀ how, e ≠ .finish l how) :
    (f.step e).work? l = some w := by
  obtain ⟨key, hx⟩ := work?_eq_some.1 h
  cases e with
  | call caller k work =>
    show (f.call caller k work).work? l = some w
    rcases call_cases f caller k work with ⟨-, hsame⟩ | ⟨m, -, -, hjoin⟩ | ⟨-, -, hnew⟩
    · rw [hsame]
      exact h
    · rw [hjoin]
      exact h
    -- The new execution stands behind all others, so that of `l` is found first.
    · rw [hnew]
      refine work?_eq_some.2 ⟨key, (execution?_push f _ l).trans ?_⟩
      rw [hx, Option.some_or]
  | advance leader work =>
    have hne : l ≠ leader := by
      rintro rfl
      exact hadvance work rfl
    exact work?_eq_some.2 ⟨key, (execution?_advance_of_ne f hne work).trans hx⟩
  | finish leader how =>
    have hne : l ≠ leader := by
      rintro rfl
      exact hfinish how rfl
    exact work?_eq_some.2 ⟨key, (execution?_finish_of_ne f hne how).trans hx⟩
  | deliver caller => exact (work?_deliver f caller l).trans h
  | abandon caller => exact h

/-- An end takes away the marker of its execution's key. -/
theorem find?_markers_finish (f : Flight ι σ α) (leader : ι) (how : Ending α) (k : String) :
    (f.finish leader how).markers.find? k =
      if (f.work? leader).isSome ∧ f.key? leader = some k then none else f.markers.find? k := by
  rcases finish_cases f leader how with ⟨hnone, hsame⟩ | ⟨key, w, hx, hfin⟩
  · rw [hsame, hnone, if_neg fun h => absurd h.1 Bool.false_ne_true]
  · have hkey : f.key? leader = some key := by
      unfold key?
      rw [hx]
      rfl
    rw [hfin, work?_eq_some.2 ⟨key, hx⟩, hkey]
    show (f.markers.erase key).find? k = _
    rw [Table.find?_erase]
    simp only [Option.isSome_some, Option.some.injEq, true_and, eq_comm]

/-- Going on moves no caller. -/
theorem leaderOf?_advance (f : Flight ι σ α) (leader : ι) (work : σ) (c : ι) :
    (f.advance leader work).leaderOf? c = f.leaderOf? c := by
  unfold leaderOf?
  rw [(advance_frame f leader work).2.1]

theorem leaderOf?_finish (f : Flight ι σ α) (leader : ι) (how : Ending α) (c : ι) :
    (f.finish leader how).leaderOf? c = f.leaderOf? c := by
  unfold leaderOf?
  rw [(finish_frame f leader how).2.1]

theorem answer?_advance (f : Flight ι σ α) (leader : ι) (work : σ) (c : ι) :
    (f.advance leader work).answer? c = f.answer? c := by
  unfold answer?
  rw [(advance_frame f leader work).2.2]

theorem answer?_finish (f : Flight ι σ α) (leader : ι) (how : Ending α) (c : ι) :
    (f.finish leader how).answer? c = f.answer? c := by
  unfold answer?
  rw [(finish_frame f leader how).2.2]

/-! ## The end of a wait -/

/-- Who abandons waits for nobody; the others wait on. -/
theorem leaderOf?_abandon (f : Flight ι σ α) (caller c : ι) :
    (f.abandon caller).leaderOf? c = if c = caller then none else f.leaderOf? c := by
  show ((f.waiting.filter fun w => w.1 ≠ caller).find? fun w => w.1 = c).map Prod.snd = _
  rw [List.find?_filter]
  by_cases hc : c = caller
  · subst hc
    simp
  · have hsame : (fun w : ι × ι => decide (decide (w.1 ≠ caller) = true ∧ decide (w.1 = c) = true))
        = fun w => decide (w.1 = c) := by
      funext w
      by_cases hw : w.1 = c
      · simp [hw, hc]
      · simp [hw]
    rw [hsame, if_neg hc]
    rfl

theorem answer?_abandon (f : Flight ι σ α) (caller c : ι) :
    (f.abandon caller).answer? c = f.answer? c := rfl

/-- A delivery takes the caller out of the waiting ones, if there is an outcome to pick up. -/
theorem leaderOf?_deliver (f : Flight ι σ α) (caller c : ι) :
    (f.deliver caller).leaderOf? c =
      if c = caller ∧ (f.leaderOf? caller).bind f.ending? ≠ none then none
      else f.leaderOf? c := by
  unfold deliver
  cases hend : (f.leaderOf? caller).bind f.ending? with
  | none => simp
  | some how =>
    simp only [ne_eq, reduceCtorEq, not_false_eq_true, and_true]
    exact leaderOf?_abandon f caller c

/-- A delivery answers its caller by the outcome of the execution it waits for, if that has ended,
unless the caller has an answer already. -/
theorem answer?_deliver (f : Flight ι σ α) (caller c : ι) :
    (f.deliver caller).answer? c =
      (f.answer? c).or (if c = caller then
        ((f.leaderOf? caller).bind f.ending?).map Ending.outcome else none) := by
  unfold deliver
  cases hend : (f.leaderOf? caller).bind f.ending? with
  | none => simp
  | some how =>
    show ((f.answered ++ [(caller, how.outcome)]).find? fun a => a.1 = c).map Prod.snd
      = ((f.answered.find? fun a => a.1 = c).map Prod.snd).or _
    rw [List.find?_append]
    by_cases hc : c = caller
    · subst hc
      cases f.answered.find? fun a => a.1 = c with
      | none => simp
      | some a => simp
    · have hne : ¬ caller = c := fun h => hc h.symm
      simp [hc, hne]

/-! ## A wait over a run -/

/-- An answer stands. -/
theorem answer?_step {f : Flight ι σ α} {c : ι} {o : Outcome α} (h : f.answer? c = some o)
    (e : Event ι σ α) : (f.step e).answer? c = some o := by
  cases e with
  | call caller key work => exact (answer?_call f caller key work c).trans h
  | advance leader work => exact (answer?_advance f leader work c).trans h
  | finish leader how => exact (answer?_finish f leader how c).trans h
  | deliver caller =>
    refine (answer?_deliver f caller c).trans ?_
    rw [h, Option.some_or]
  | abandon caller => exact h

/-- Who waits keeps waiting for the same leader until it is answered, unless it gives up. -/
theorem waits_or_answered {f : Flight ι σ α} (hf : Sound f) {c l : ι}
    (hwait : f.leaderOf? c = some l) {e : Event ι σ α} (he : e ≠ .abandon c) :
    (f.step e).leaderOf? c = some l ∨ ∃ o, (f.step e).answer? c = some o := by
  cases e with
  | call caller key work =>
    have hcalled := (hf.waits _ (leaderOf?_mem hwait)).1
    left
    refine (leaderOf?_call hf caller key work c).trans ((if_neg ?_).trans hwait)
    rintro ⟨rfl, hnew⟩
    exact hnew hcalled
  | advance leader work => exact Or.inl ((leaderOf?_advance f leader work c).trans hwait)
  | finish leader how => exact Or.inl ((leaderOf?_finish f leader how c).trans hwait)
  | deliver caller =>
    -- The one event by which a caller stops waiting: either nothing is picked up, or it is
    -- answered.
    have hleader := leaderOf?_deliver f caller c
    have hanswer := answer?_deliver f caller c
    by_cases hc : c = caller
    · subst hc
      cases hpicked : (f.leaderOf? c).bind f.ending? with
      | none =>
        rw [hpicked, if_neg fun h => h.2 rfl] at hleader
        exact Or.inl (hleader.trans hwait)
      | some how =>
        rw [hpicked, if_pos rfl] at hanswer
        right
        cases hold : f.answer? c with
        | none => exact ⟨how.outcome, by rw [hold] at hanswer; exact hanswer⟩
        | some o => exact ⟨o, answer?_step hold (.deliver c)⟩
    · rw [if_neg fun h => hc h.1] at hleader
      exact Or.inl (hleader.trans hwait)
  | abandon caller =>
    have hc : c ≠ caller := by
      rintro rfl
      exact he rfl
    exact Or.inl ((leaderOf?_abandon f caller c).trans ((if_neg hc).trans hwait))

/-! ## The works and the waits

What starts, runs and ends on a board depends on its executions, its markers and its callers, and
not on who waits or has been answered. -/

/-- The boards have the same executions, markers and callers. -/
structure SameWork (f g : Flight ι σ α) : Prop where
  executions : f.executions = g.executions
  markers : f.markers = g.markers
  callers : f.callers = g.callers

theorem SameWork.execution? {f g : Flight ι σ α} (h : SameWork f g) (l : ι) :
    f.execution? l = g.execution? l := by
  unfold Flight.execution?
  rw [h.executions]

theorem SameWork.work? {f g : Flight ι σ α} (h : SameWork f g) (l : ι) :
    f.work? l = g.work? l := by
  unfold Flight.work?
  rw [h.execution?]

theorem SameWork.ending? {f g : Flight ι σ α} (h : SameWork f g) (l : ι) :
    f.ending? l = g.ending? l := by
  unfold Flight.ending?
  rw [h.execution?]

theorem SameWork.starts {f g : Flight ι σ α} (h : SameWork f g) (e : Event ι σ α) :
    f.starts e = g.starts e := by
  cases e with
  | call caller key work =>
    unfold Flight.starts
    rw [h.callers, h.markers]
  | advance leader work => rfl
  | finish leader how => rfl
  | deliver caller => rfl
  | abandon caller => rfl

/-- Boards with the same work end the same executions by an event. -/
theorem SameWork.ends {f g : Flight ι σ α} (h : SameWork f g) (e : Event ι σ α) :
    f.ends e = g.ends e := by
  cases e with
  | finish leader how =>
    simp only [Flight.ends, h.work?]
  | call caller key work => rfl
  | advance leader work => rfl
  | deliver caller => rfl
  | abandon caller => rfl

/-- To pick up an answer leaves the works alone. -/
theorem sameWork_deliver (f : Flight ι σ α) (caller : ι) : SameWork (f.deliver caller) f := by
  rcases deliver_cases f caller with hsame | ⟨l, how, -, -, hdel⟩
  · rw [hsame]
    exact ⟨rfl, rfl, rfl⟩
  · rw [hdel]
    exact ⟨rfl, rfl, rfl⟩

/-- Boards with the same work have the same work after an event: who waits has no say in it. -/
theorem SameWork.step {f g : Flight ι σ α} (h : SameWork f g) (e : Event ι σ α) :
    SameWork (f.step e) (g.step e) := by
  -- What an event does to the work is read off the work and the callers; they are the same here.
  cases e with
  | call caller key work =>
    show SameWork (f.call caller key work) (g.call caller key work)
    unfold call
    by_cases hc : caller ∈ f.callers
    · rw [if_pos hc, if_pos (h.callers ▸ hc)]
      exact h
    · rw [if_neg hc, if_neg (h.callers ▸ hc), h.markers]
      cases g.markers.find? key with
      | some l => exact ⟨h.executions, rfl, congrArg (· ++ [caller]) h.callers⟩
      | none =>
        exact ⟨congrArg (· ++ [_]) h.executions, rfl, congrArg (· ++ [caller]) h.callers⟩
  | advance leader work =>
    show SameWork (f.advance leader work) (g.advance leader work)
    unfold advance
    rw [h.work?]
    cases g.work? leader with
    | none => exact h
    | some w => exact ⟨congrArg (setProgress leader _) h.executions, h.markers, h.callers⟩
  | finish leader how =>
    show SameWork (f.finish leader how) (g.finish leader how)
    unfold finish
    rw [h.execution?]
    rcases g.execution? leader with _ | ⟨l, key, w | how'⟩
    · exact h
    · exact ⟨congrArg (setProgress leader _) h.executions, congrArg (Table.erase · key) h.markers,
        h.callers⟩
    · exact h
  | deliver caller =>
    have hf := sameWork_deliver f caller
    have hg := sameWork_deliver g caller
    exact ⟨hf.executions.trans (h.executions.trans hg.executions.symm),
      hf.markers.trans (h.markers.trans hg.markers.symm),
      hf.callers.trans (h.callers.trans hg.callers.symm)⟩
  | abandon caller => exact ⟨h.executions, h.markers, h.callers⟩

end Flight

end PeerCache
