import PeerCache.Proofs.Flight.Callers
/-!
# PeerCache — whose outcome a caller gets

The first call of a caller decides everything about it: if its key has a marker then, the caller is
attached to the marker's execution and its own work is dropped; if not, its own work is started and
the caller is attached to that. `Bound` follows the attachment from the call on:

* **`bound_call`** — the call sets it up;
* **`Bound.step`**, **`Bound.run`** — nothing that happens later can redirect the caller, and what
  it is answered is how the execution it is attached to has ended;
* **`FirstCall.answer?_deliver`** — a caller that does not give up can pick that up.

The last section joins this with the ledgers of `Flight.Step`, which count how often a caller's own
work is started and brought to an end.
-/

namespace PeerCache

namespace Flight

variable {ι σ α : Type} [DecidableEq ι]

/-! ## Attached callers -/

/-- A caller of `key` is attached to the execution of leader `l`. -/
structure Bound (f : Flight ι σ α) (caller l : ι) (key : String) : Prop where
  called : caller ∈ f.callers
  key : f.key? l = some key
  waits : ∀ m, (caller, m) ∈ f.waiting → m = l
  answered : ∀ o, (caller, o) ∈ f.answered → ∃ how, f.ending? l = some how ∧ o = how.outcome

/-- A first call binds its caller to the execution it is attached to. -/
theorem bound_call {f : Flight ι σ α} (hf : Sound f) {caller : ι} (key : String) (work : σ)
    (hc : caller ∉ f.callers) :
    Bound (f.call caller key work) caller (f.attached caller key) key := by
  have hwaits : ∀ l m, (caller, m) ∈ f.waiting ++ [(caller, l)] → m = l := by
    intro l m hm
    rcases List.mem_append.1 hm with hm | hm
    · exact absurd (hf.waits _ hm).1 hc
    · exact (Prod.mk.inj (List.mem_singleton.1 hm)).2
  have hanswered : ∀ o, (caller, o) ∉ f.answered := fun o ho => hc (hf.answered _ ho)
  rcases call_cases f caller key work with ⟨hcalled, -⟩ | ⟨l, -, hmark, hjoin⟩ | ⟨-, hmark, hnew⟩
  · exact absurd hcalled hc
  · have hl := attached_of_marker hmark caller
    obtain ⟨w, hx⟩ := (hf.marked key l).1 hmark
    rw [hl, hjoin]
    refine ⟨List.mem_append_right _ (List.mem_singleton.2 rfl), ?_, hwaits l, ?_⟩
    · exact Option.map_eq_some_iff.2 ⟨_, hx, rfl⟩
    · exact fun o ho => absurd ho (hanswered o)
  · have hl := attached_of_no_marker hmark caller
    have hx := execution?_push f ⟨caller, key, .underway work⟩ caller
    rw [hf.execution?_eq_none hc, Option.none_or, if_pos rfl] at hx
    rw [hl, hnew]
    refine ⟨List.mem_append_right _ (List.mem_singleton.2 rfl), ?_, hwaits caller, ?_⟩
    · exact Option.map_eq_some_iff.2 ⟨_, hx, rfl⟩
    · exact fun o ho => absurd ho (hanswered o)

/-- A caller that has called begins to wait no more, and a new answer comes from the execution it
waits for. -/
theorem Bound.step {f : Flight ι σ α} {caller l : ι} {key : String} (h : Bound f caller l key)
    (e : Event ι σ α) : Bound (f.step e) caller l key := by
  have hlater := later_step f e
  have hcalled := hlater.callers caller h.called
  have hkey := hlater.key? h.key
  -- An answer that it has already is the end of the same execution still.
  have hold : ∀ o, (caller, o) ∈ f.answered →
      ∃ how, (f.step e).ending? l = some how ∧ o = how.outcome := by
    intro o ho
    obtain ⟨how, hend, rfl⟩ := h.answered o ho
    exact ⟨how, hlater.ending? hend, rfl⟩
  cases e with
  | call c k work =>
    -- The caller has called, so a call that adds to the waiting ones is somebody else's.
    have hwaiting : ∀ m, (caller, m) ∈ (f.call c k work).waiting → (caller, m) ∈ f.waiting := by
      intro m hm
      rcases call_cases f c k work with ⟨-, hsame⟩ | ⟨n, hc, -, hjoin⟩ | ⟨hc, -, hnew⟩
      · rwa [hsame] at hm
      · rw [hjoin] at hm
        rcases List.mem_append.1 hm with hm | hm
        · exact hm
        · exact absurd ((Prod.mk.inj (List.mem_singleton.1 hm)).1 ▸ h.called) hc
      · rw [hnew] at hm
        rcases List.mem_append.1 hm with hm | hm
        · exact hm
        · exact absurd ((Prod.mk.inj (List.mem_singleton.1 hm)).1 ▸ h.called) hc
    have hanswered : (f.call c k work).answered = f.answered := by
      rcases call_cases f c k work with ⟨-, hsame⟩ | ⟨n, -, -, hjoin⟩ | ⟨-, -, hnew⟩
      · rw [hsame]
      · rw [hjoin]
      · rw [hnew]
    refine ⟨hcalled, hkey, fun m hm => h.waits m (hwaiting m hm), ?_⟩
    intro o ho
    have ho : (caller, o) ∈ (f.call c k work).answered := ho
    rw [hanswered] at ho
    exact hold o ho
  | advance leader work =>
    obtain ⟨-, hwaiting, hanswered⟩ := advance_frame f leader work
    exact ⟨hcalled, hkey, fun m hm => h.waits m (hwaiting ▸ hm),
      fun o ho => hold o (hanswered ▸ ho)⟩
  | finish leader how =>
    obtain ⟨-, hwaiting, hanswered⟩ := finish_frame f leader how
    exact ⟨hcalled, hkey, fun m hm => h.waits m (hwaiting ▸ hm),
      fun o ho => hold o (hanswered ▸ ho)⟩
  | deliver c =>
    rcases deliver_cases f c with hsame | ⟨m, how, hw, hend, hdel⟩
    · show Bound (f.deliver c) caller l key
      rw [hsame]
      exact h
    · refine ⟨hcalled, hkey, ?_, ?_⟩
      · intro n hn
        have hn : (caller, n) ∈ (f.deliver c).waiting := hn
        rw [hdel] at hn
        exact h.waits n (List.mem_of_mem_filter hn)
      · intro o ho
        have hmem : (caller, o) ∈ (f.deliver c).answered := ho
        rw [hdel] at hmem
        rcases List.mem_append.1 hmem with hmem | hmem
        · exact hold o hmem
        · -- the answer just given: the caller waited for `m`, so `m` is its leader
          obtain ⟨rfl, rfl⟩ := Prod.mk.inj (List.mem_singleton.1 hmem)
          have hm := h.waits m hw
          subst hm
          exact ⟨how, hlater.ending? hend, rfl⟩
  | abandon c =>
    refine ⟨hcalled, hkey, ?_, hold⟩
    exact fun m hm => h.waits m (List.mem_of_mem_filter hm)

/-- Once bound, a caller stays so, whatever happens. -/
theorem Bound.run {f : Flight ι σ α} {caller l : ι} {key : String} (h : Bound f caller l key)
    (events : List (Event ι σ α)) : Bound (f.run events) caller l key := by
  induction events generalizing f with
  | nil => exact h
  | cons e es ih => exact ih (h.step e)

/-- A caller that waits is attached to the execution that it waits for. -/
theorem Sound.bound_of_waiting {f : Flight ι σ α} (hf : Sound f) {caller l : ι}
    (hwait : f.leaderOf? caller = some l) : ∃ key, Bound f caller l key := by
  have hmem := leaderOf?_mem hwait
  obtain ⟨hcalled, x, hx⟩ := hf.waits _ hmem
  refine ⟨x.key, hcalled, Option.map_eq_some_iff.2 ⟨x, hx, rfl⟩, ?_, ?_⟩
  · intro m hm
    have honce := (List.nodup_append.1 hf.once).1
    exact (Prod.mk.inj (List.inj_on_of_nodup_map honce hm hmem rfl)).2
  · intro o ho
    have hdisjoint := List.disjoint_of_nodup_append hf.once
    exact absurd (List.mem_map.2 ⟨_, ho, rfl⟩) (hdisjoint (List.mem_map.2 ⟨_, hmem, rfl⟩))

/-! ## First calls -/

/-- The run `events` comes to the first call of `caller` after `before`; the call is for `key`, and
`work` is what the caller would run. -/
structure FirstCall (events before : List (Event ι σ α)) (caller : ι) (key : String) (work : σ) :
    Prop where
  split : ∃ after, events = before ++ .call caller key work :: after
  first : caller ∉ (run empty before).callers

/-- A first call is one of the events of its run. -/
theorem FirstCall.mem {events before : List (Event ι σ α)} {caller : ι} {key : String} {work : σ}
    (h : FirstCall events before caller key work) : .call caller key work ∈ events := by
  obtain ⟨after, hsplit⟩ := h.split
  rw [hsplit]
  exact List.mem_append_right _ List.mem_cons_self

/-- Nobody comes to have called but by a call. -/
theorem mem_callers_step {f : Flight ι σ α} {e : Event ι σ α} {c : ι}
    (h : c ∈ (f.step e).callers) : c ∈ f.callers ∨ ∃ key work, e = .call c key work := by
  cases e with
  | call caller key work =>
    rcases (mem_callers_call f caller key work c).1 h with hold | rfl
    · exact Or.inl hold
    · exact Or.inr ⟨key, work, rfl⟩
  | advance leader work => exact Or.inl ((advance_frame f leader work).1 ▸ h)
  | finish leader how => exact Or.inl ((finish_frame f leader how).1 ▸ h)
  | deliver caller => exact Or.inl ((sameWork_deliver f caller).callers ▸ h)
  | abandon caller => exact Or.inl h

/-- Who has called by the end of a run, and not before it, has a first call in it. -/
theorem exists_first_call {f : Flight ι σ α} {events : List (Event ι σ α)} {c : ι}
    (hnot : c ∉ f.callers) (h : c ∈ (f.run events).callers) :
    ∃ before key work after, events = before ++ .call c key work :: after ∧
      c ∉ (f.run before).callers := by
  induction events generalizing f with
  | nil => exact absurd h hnot
  | cons e es ih =>
    by_cases hc : c ∈ (f.step e).callers
    · rcases mem_callers_step hc with hc | ⟨key, work, rfl⟩
      · exact absurd hc hnot
      · exact ⟨[], key, work, es, rfl, hnot⟩
    · obtain ⟨before, key, work, after, rfl, hbefore⟩ := ih hc h
      exact ⟨e :: before, key, work, after, rfl, hbefore⟩

/-! ## The ledgers of one caller -/

/-- A first call starts an execution exactly if its key is not in flight. -/
theorem starts_call {f : Flight ι σ α} {caller : ι} (hc : caller ∉ f.callers) (key : String)
    (work : σ) :
    f.starts (.call caller key work) =
      if f.markers.find? key = none then [⟨caller, key, .underway work⟩] else [] := by
  show (if caller ∈ f.callers then [] else _) = _
  rw [if_neg hc]
  cases f.markers.find? key with
  | none => rfl
  | some l => rfl

/-- What a caller starts over a run is what it starts at its first call. -/
theorem FirstCall.filter_started {events before : List (Event ι σ α)} {caller : ι} {key : String}
    {work : σ} (h : FirstCall events before caller key work) :
    (started empty events).filter (fun x => x.leader = caller) =
      if (run empty before).markers.find? key = none then [⟨caller, key, .underway work⟩]
      else [] := by
  obtain ⟨after, rfl⟩ := h.split
  have hbefore : (started empty before).filter (fun x => x.leader = caller) = [] := by
    refine List.filter_eq_nil_iff.2 ?_
    intro x hx hleader
    have hcalled := mem_started hx
    rw [decide_eq_true_eq] at hleader
    rw [hleader] at hcalled
    exact h.first hcalled
  have hcalled : caller ∈ ((run empty before).step (.call caller key work)).callers :=
    (bound_call (sound_run sound_empty before) key work h.first).called
  have hcons : (run empty before).started (.call caller key work :: after)
      = (run empty before).starts (.call caller key work)
        ++ ((run empty before).step (.call caller key work)).started after := rfl
  rw [started_append, List.filter_append, hbefore, List.nil_append, hcons, List.filter_append,
    Flight.filter_started hcalled, List.append_nil, starts_call h.first]
  split
  · exact List.filter_cons_of_pos (decide_eq_true rfl)
  · rfl

/-- The ends of one leader over a run from the start. -/
theorem filter_ended_empty (events : List (Event ι σ α)) (l : ι) :
    (ended empty events).filter (fun x => x.1 = l) =
      match (run empty events).ending? l with
      | some how => [(l, how)]
      | none => [] := by
  have hstart : (empty : Flight ι σ α).ending? l = none := rfl
  rw [filter_ended, hstart]
  cases (run empty events).ending? l with
  | none => rfl
  | some how => rfl

/-- What a run has ended has ended on the board it leads to, in the same way. -/
theorem ending?_of_mem_ended {events : List (Event ι σ α)} {l : ι} {how : Ending α}
    (h : (l, how) ∈ ended empty events) : (run empty events).ending? l = some how := by
  have hmem : (l, how) ∈ (ended empty events).filter (fun x => x.1 = l) :=
    List.mem_filter.2 ⟨h, decide_eq_true rfl⟩
  rw [filter_ended_empty] at hmem
  cases hend : (run empty events).ending? l with
  | none =>
    rw [hend] at hmem
    cases hmem
  | some how' =>
    rw [hend] at hmem
    rw [(Prod.mk.inj (List.mem_singleton.1 hmem)).2]

/-! ## Every call -/

/-- What the first call of `caller`, made after `before`, comes to in the run `events`. -/
structure Served (events before : List (Event ι σ α)) (caller : ι) (key : String) (work : σ) :
    Prop where
  /-- The execution that the caller is attached to is one for the key it asked for. -/
  isFor : (run empty events).key? ((run empty before).attached caller key) = some key
  /-- What the caller is answered is how that execution ended. -/
  answer : ∀ o, (caller, o) ∈ (run empty events).answered → ∃ how,
    (run empty events).ending? ((run empty before).attached caller key) = some how ∧
      o = how.outcome
  /-- A caller that does not give up is answered when its execution has ended and it picks the
  outcome up. -/
  pickup : ∀ after, events = before ++ .call caller key work :: after → .abandon caller ∉ after →
    ∀ how, (run empty events).ending? ((run empty before).attached caller key) = some how →
      ((run empty events).deliver caller).answer? caller = some how.outcome
  /-- Without a marker for the key this is the caller's own work: it is started once, ends at most
  once, and has ended once when no execution is left underway. -/
  own : (run empty before).markers.find? key = none →
    (run empty before).attached caller key = caller ∧
    (started empty events).filter (fun x => x.leader = caller)
      = [⟨caller, key, .underway work⟩] ∧
    ((ended empty events).filter fun x => x.1 = caller).length ≤ 1 ∧
    ((run empty events).underway = [] → ∃ how,
      (run empty events).ending? caller = some how ∧
        (ended empty events).filter (fun x => x.1 = caller) = [(caller, how)])
  /-- With a marker it is the marker's execution, underway at the call; the caller's own work is
  never started, and nothing ends in its name. -/
  joined : ∀ l, (run empty before).markers.find? key = some l →
    (run empty before).attached caller key = l ∧ l ≠ caller ∧
    (∃ w, (run empty before).execution? l = some ⟨l, key, .underway w⟩) ∧
    (started empty events).filter (fun x => x.leader = caller) = [] ∧
    (ended empty events).filter (fun x => x.1 = caller) = []
  /-- No execution that had ended before the call is the one the caller is attached to. -/
  fresh : ∀ l how, (l, how) ∈ ended empty before → l ≠ (run empty before).attached caller key

/-- From its first call on a caller is bound to one execution. -/
theorem FirstCall.bound {events before : List (Event ι σ α)} {caller : ι} {key : String}
    {work : σ} (h : FirstCall events before caller key work) :
    Bound (run empty events) caller ((run empty before).attached caller key) key := by
  obtain ⟨after, rfl⟩ := h.split
  rw [run_append]
  exact (bound_call (sound_run sound_empty before) key work h.first).run after

/-- A caller that joined leads no execution, then or later. -/
theorem FirstCall.execution?_eq_none {events before : List (Event ι σ α)} {caller l : ι}
    {key : String} {work : σ} (h : FirstCall events before caller key work)
    (hmark : (run empty before).markers.find? key = some l) :
    (run empty events).execution? caller = none := by
  have hf := sound_run sound_empty before
  obtain ⟨after, rfl⟩ := h.split
  have hcalled := (bound_call hf key work h.first).called
  have hnone : ((run empty before).call caller key work).execution? caller = none := by
    rcases call_cases (run empty before) caller key work with
      ⟨hc, -⟩ | ⟨m, -, -, hjoin⟩ | ⟨-, hno, -⟩
    · exact absurd hc h.first
    · rw [hjoin]
      exact hf.execution?_eq_none h.first
    · rw [hmark] at hno
      cases hno
  rw [run_append]
  exact execution?_run_eq_none hcalled hnone after

/-! ## The first call behind an answer -/

/-- An answer comes from the execution that the caller's first call attached it to. -/
theorem exists_first_call_of_answered {events : List (Event ι σ α)} {caller : ι} {o : Outcome α}
    (ho : (caller, o) ∈ (run empty events).answered) :
    ∃ before key work, FirstCall events before caller key work := by
  have hf := sound_run sound_empty events
  obtain ⟨before, key, work, after, hsplit, hfirst⟩ :=
    exists_first_call (f := empty) (c := caller) (fun h => by cases h) (hf.answered _ ho)
  exact ⟨before, key, work, ⟨after, hsplit⟩, hfirst⟩

/-- An execution is there because of its leader's first call, which was for its key. -/
theorem exists_first_call_of_key? {events : List (Event ι σ α)} {l : ι} {key : String}
    (hkey : (run empty events).key? l = some key) :
    ∃ before work, FirstCall events before l key work := by
  have hf := sound_run sound_empty events
  obtain ⟨x, hx, rfl⟩ := Option.map_eq_some_iff.1 hkey
  have hcalled := hf.called x (mem_of_execution? hx)
  rw [leader_of_execution? hx] at hcalled
  obtain ⟨before, key, work, after, hsplit, hfirst⟩ :=
    exists_first_call (f := empty) (c := l) (fun h => by cases h) hcalled
  have hcall : FirstCall events before l key work := ⟨⟨after, hsplit⟩, hfirst⟩
  cases hmark : (run empty before).markers.find? key with
  | some m =>
    rw [hcall.execution?_eq_none hmark] at hx
    cases hx
  | none =>
    have hbound := hcall.bound.key
    rw [attached_of_no_marker hmark, hkey] at hbound
    rw [Option.some.inj hbound]
    exact ⟨before, work, hcall⟩

/-- An execution that is there when none is underway has ended. -/
theorem ending?_of_underway_eq_nil {f : Flight ι σ α} {l : ι} {key : String}
    (hkey : f.key? l = some key) (hdone : f.underway = []) : ∃ how, f.ending? l = some how := by
  obtain ⟨x, hx, rfl⟩ := Option.map_eq_some_iff.1 hkey
  have hleader := leader_of_execution? hx
  have hended := List.filter_eq_nil_iff.1 hdone x (mem_of_execution? hx)
  obtain ⟨leader, key, p⟩ := x
  cases p with
  | underway w => exact absurd rfl hended
  | ended how => exact ⟨how, ending?_eq_some.2 ⟨key, by rw [hx, ← hleader]⟩⟩

/-- Who has called and does not give up waits for the leader it is attached to, or is answered. -/
theorem waits_or_answered_run {f : Flight ι σ α} (hf : Sound f) {c l : ι}
    (h : f.leaderOf? c = some l ∨ ∃ o, f.answer? c = some o) {events : List (Event ι σ α)}
    (hno : .abandon c ∉ events) :
    (f.run events).leaderOf? c = some l ∨ ∃ o, (f.run events).answer? c = some o := by
  induction events generalizing f with
  | nil => exact h
  | cons e es ih =>
    refine ih (sound_step hf e) ?_ fun hmem => hno (List.mem_cons_of_mem _ hmem)
    rcases h with hwait | ⟨o, ho⟩
    · exact waits_or_answered hf hwait fun heq => hno (heq ▸ List.mem_cons_self)
    · exact Or.inr ⟨o, answer?_step ho e⟩

/-- A caller that has not given up is answered by the end of its execution when it comes to pick it
up. -/
theorem FirstCall.answer?_deliver {events before after : List (Event ι σ α)} {caller : ι}
    {key : String} {work : σ} (h : FirstCall events before caller key work)
    (hsplit : events = before ++ .call caller key work :: after) (hno : .abandon caller ∉ after)
    {how : Ending α}
    (hend : (run empty events).ending? ((run empty before).attached caller key) = some how) :
    ((run empty events).deliver caller).answer? caller = some how.outcome := by
  have hf := sound_run sound_empty before
  have hbound := h.bound
  have hcalled : ((run empty before).call caller key work).leaderOf? caller =
      some ((run empty before).attached caller key) :=
    (leaderOf?_call hf caller key work caller).trans (if_pos ⟨rfl, h.first⟩)
  have hwaits : (run empty events).leaderOf? caller =
      some ((run empty before).attached caller key) ∨
        ∃ o, (run empty events).answer? caller = some o := by
    rw [hsplit, run_append]
    exact waits_or_answered_run (sound_step hf (.call caller key work)) (Or.inl hcalled) hno
  rw [Flight.answer?_deliver, if_pos rfl]
  cases hold : (run empty events).answer? caller with
  | some o =>
    -- what has been picked up already is the same outcome
    obtain ⟨how', hend', rfl⟩ := hbound.answered o (answer?_mem hold)
    rw [hend] at hend'
    cases hend'
    rfl
  | none =>
    rcases hwaits with hwait | ⟨o, ho⟩
    · rw [hwait, Option.bind_some, hend]
      rfl
    · cases hold.symm.trans ho

/-- Every first call is served. -/
theorem FirstCall.served {events before : List (Event ι σ α)} {caller : ι} {key : String}
    {work : σ} (h : FirstCall events before caller key work) :
    Served events before caller key work := by
  have hf := sound_run sound_empty before
  have hbound := h.bound
  refine ⟨hbound.key, hbound.answered,
    fun after hsplit hno how hend => h.answer?_deliver hsplit hno hend, ?_, ?_, ?_⟩
  · intro hmark
    have hstarted := h.filter_started
    rw [if_pos hmark] at hstarted
    have hself := attached_of_no_marker hmark caller
    refine ⟨hself, hstarted, ?_, ?_⟩
    · rw [filter_ended_empty]
      split
      · exact Nat.le_refl 1
      · exact Nat.zero_le 1
    · intro hdone
      have hkey := hbound.key
      rw [hself] at hkey
      obtain ⟨how, hend⟩ := ending?_of_underway_eq_nil hkey hdone
      refine ⟨how, hend, ?_⟩
      rw [filter_ended_empty, hend]
  · intro l hmark
    have hstarted := h.filter_started
    rw [hmark, if_neg (by simp)] at hstarted
    obtain ⟨w, hx⟩ := (hf.marked key l).1 hmark
    have hne : l ≠ caller := by
      rintro rfl
      rw [hf.execution?_eq_none h.first] at hx
      cases hx
    have hend : (run empty events).ending? caller = none := by
      unfold ending?
      rw [h.execution?_eq_none hmark]
    refine ⟨attached_of_marker hmark caller, hne, ⟨w, hx⟩, hstarted, ?_⟩
    rw [filter_ended_empty, hend]
  · intro l how hended heq
    have hend := ending?_of_mem_ended hended
    cases hmark : (run empty before).markers.find? key with
    | none =>
      -- the caller leads nothing yet
      rw [attached_of_no_marker hmark caller] at heq
      subst heq
      obtain ⟨k, hx⟩ := ending?_eq_some.1 hend
      rw [hf.execution?_eq_none h.first] at hx
      cases hx
    | some m =>
      -- the marker's execution is underway
      rw [attached_of_marker hmark caller] at heq
      subst heq
      obtain ⟨w, hx⟩ := (hf.marked key l).1 hmark
      rw [ending?_underway hx] at hend
      cases hend

/-! ## Whole runs -/

/-- Every caller that is answered has called, is answered once, and gets the outcome of the one
execution that its first call attached it to; callers attached to one execution get one outcome. Who
does not give up can pick the outcome up as soon as the execution has ended. -/
theorem run_serves_every_call (events : List (Event ι σ α)) :
    ((run empty events).answered.map Prod.fst).Nodup ∧
    (∀ caller o, (caller, o) ∈ (run empty events).answered →
      ∃ before key work, FirstCall events before caller key work) ∧
    (∀ before caller key work, FirstCall events before caller key work →
      Served events before caller key work) ∧
    (∀ before₁ before₂ caller₁ caller₂ key₁ key₂ work₁ work₂ o₁ o₂,
      FirstCall events before₁ caller₁ key₁ work₁ → FirstCall events before₂ caller₂ key₂ work₂ →
      (run empty before₁).attached caller₁ key₁ = (run empty before₂).attached caller₂ key₂ →
      (caller₁, o₁) ∈ (run empty events).answered →
      (caller₂, o₂) ∈ (run empty events).answered → o₁ = o₂) := by
  have hf := sound_run sound_empty events
  refine ⟨?_, ?_, ?_, ?_⟩
  · exact (List.nodup_append.1 hf.once).2.1
  · exact fun caller o ho => exists_first_call_of_answered ho
  · exact fun before caller key work h => h.served
  · intro before₁ before₂ caller₁ caller₂ key₁ key₂ work₁ work₂ o₁ o₂ h₁ h₂ hsame ho₁ ho₂
    obtain ⟨how₁, hend₁, rfl⟩ := h₁.bound.answered o₁ ho₁
    obtain ⟨how₂, hend₂, rfl⟩ := h₂.bound.answered o₂ ho₂
    rw [hsame, hend₂] at hend₁
    rw [Option.some.inj hend₁]

end Flight

end PeerCache
