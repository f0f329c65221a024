import Mathlib.Data.List.Induction
import PeerCache.Flight.Selection
import PeerCache.Proofs.Flight.Markers
/-!
# PeerCache — keys do not meet

All keys share one board. A run is laid beside the run in which only the events that concern one key
are left, and those who ask for that key cannot tell the two boards apart, after any event:

* **`askedFor?_of_call`**, **`askedFor?_of_execution?`**, **`askedFor?_of_leaderOf?`** — on the
  board of a run everybody is where the key of their first call puts them: their execution is for
  that key, and the leader they wait for has asked for it too.
* **`sameFor_step_other`** — so an event of another key changes nothing for this one.
* **`SameFor.step`** — and an event that does concern the key does the same on both boards.
* **`filter_starts`**, **`filter_ends_asked`** — what such an event starts and ends is the same too.
-/

namespace PeerCache

namespace Flight

variable {ι σ α : Type} [DecidableEq ι]

/-! ## The key a caller asks for -/

/-- The key of a first call does not depend on what comes later. -/
theorem askedFor?_append {before : List (Event ι σ α)} {c : ι} {key : String}
    (h : askedFor? before c = some key) (after : List (Event ι σ α)) :
    askedFor? (before ++ after) c = some key := by
  unfold askedFor? at h ⊢
  rw [List.findSome?_append, h]
  rfl

/-- Who calls in a run has called after it. -/
theorem mem_callers_of_call {events : List (Event ι σ α)} {c : ι} {key : String} {work : σ}
    (h : .call c key work ∈ events) : c ∈ (run empty events).callers := by
  obtain ⟨before, after, rfl⟩ := List.append_of_mem h
  rw [run_append]
  refine (later_run ((run empty before).step (.call c key work)) after).callers c ?_
  exact (mem_callers_call _ c key work c).2 (Or.inr rfl)

/-- Who has not called before asks for the key of the call that comes next. -/
theorem askedFor?_of_call {before : List (Event ι σ α)} {c : ι}
    (hc : c ∉ (run empty before).callers) (key : String) (work : σ)
    (after : List (Event ι σ α)) :
    askedFor? (before ++ .call c key work :: after) c = some key := by
  have hnone : before.findSome? (Event.keyFor? c) = none := by
    refine List.findSome?_eq_none_iff.2 ?_
    intro e he
    cases e with
    | call c' key' work' =>
      have hne : c' ≠ c := by
        rintro rfl
        exact hc (mem_callers_of_call he)
      exact if_neg hne
    | advance leader work' => rfl
    | finish leader how => rfl
    | deliver caller => rfl
    | abandon caller => rfl
  unfold askedFor?
  rw [List.findSome?_append, hnone, Option.none_or]
  simp only [List.findSome?_cons, Event.keyFor?, if_true]

/-- An execution is for the key that its leader has asked for. -/
theorem askedFor?_of_execution? {before : List (Event ι σ α)} {l : ι} {x : Execution ι σ α}
    (hx : (run empty before).execution? l = some x) (after : List (Event ι σ α)) :
    askedFor? (before ++ after) l = some x.key := by
  have hkey : (run empty before).key? l = some x.key := Option.map_eq_some_iff.2 ⟨x, hx, rfl⟩
  obtain ⟨first, work, hcall⟩ := exists_first_call_of_key? hkey
  obtain ⟨rest, rfl⟩ := hcall.split
  exact askedFor?_append (askedFor?_of_call hcall.first x.key work rest) after

/-- A caller waits for an execution of the key that it has asked for itself. -/
theorem askedFor?_of_leaderOf? {before : List (Event ι σ α)} {c l : ι}
    (hwait : (run empty before).leaderOf? c = some l) (after : List (Event ι σ α)) :
    ∃ key, askedFor? (before ++ after) c = some key ∧ askedFor? (before ++ after) l = some key := by
  have hmem := leaderOf?_mem hwait
  have hcalled := ((sound_run sound_empty before).waits _ hmem).1
  obtain ⟨first, key, work, rest, hsplit, hnot⟩ :=
    exists_first_call (List.not_mem_nil (a := c)) hcalled
  have hbound := FirstCall.bound ⟨⟨rest, hsplit⟩, hnot⟩
  have hkey := hbound.key
  rw [← hbound.waits l hmem] at hkey
  obtain ⟨x, hx, rfl⟩ := Option.map_eq_some_iff.1 hkey
  refine ⟨x.key, ?_, askedFor?_of_execution? hx after⟩
  rw [hsplit]
  exact askedFor?_append (askedFor?_of_call hnot x.key work rest) after

/-- A caller that has asked asks for no other key exactly if that is the key. -/
theorem asksOnly_iff {events : List (Event ι σ α)} {key k : String} {c : ι}
    (hasked : askedFor? events c = some k) : asksOnly events key c = true ↔ k = key := by
  unfold asksOnly
  rw [hasked]
  exact decide_eq_true_iff

/-! ## Two boards for one key -/

theorem SameFor.refl (events : List (Event ι σ α)) (key : String) (f : Flight ι σ α) :
    SameFor events key f f :=
  ⟨rfl, fun _ _ => Iff.rfl, fun _ _ => rfl, fun _ _ => rfl, fun _ _ => rfl⟩

theorem SameFor.trans {events : List (Event ι σ α)} {key : String} {f g h : Flight ι σ α}
    (hfg : SameFor events key f g) (hgh : SameFor events key g h) : SameFor events key f h where
  marker := hfg.marker.trans hgh.marker
  called := fun c hc => (hfg.called c hc).trans (hgh.called c hc)
  execution := fun c hc => (hfg.execution c hc).trans (hgh.execution c hc)
  leader := fun c hc => (hfg.leader c hc).trans (hgh.leader c hc)
  answer := fun c hc => (hfg.answer c hc).trans (hgh.answer c hc)

theorem SameFor.work? {events : List (Event ι σ α)} {key : String} {f g : Flight ι σ α}
    (h : SameFor events key f g) {l : ι} (hl : asksOnly events key l = true) :
    f.work? l = g.work? l := by
  unfold Flight.work?
  rw [h.execution l hl]

/-! ## An event of another key -/

/-- An event that concerns another key changes nothing for this one. -/
theorem sameFor_step_other {before after : List (Event ι σ α)} {e : Event ι σ α} {key : String}
    (he : concerns (before ++ e :: after) key e = false) :
    SameFor (before ++ e :: after) key ((run empty before).step e) (run empty before) := by
  have hf := sound_run sound_empty before
  -- whoever asks for no other key is not the party of this event
  have hne : ∀ c, asksOnly (before ++ e :: after) key c = true → c ≠ e.party := by
    rintro c hc rfl
    rw [concerns, hc] at he
    cases he
  cases e with
  | call caller k work =>
    by_cases hcalled : caller ∈ (run empty before).callers
    · show SameFor _ key ((run empty before).call caller k work) _
      rw [call_of_mem hcalled]
      exact SameFor.refl _ key _
    · have hk : key ≠ k := by
        rintro rfl
        have hasked := askedFor?_of_call hcalled key work after
        exact Bool.false_ne_true (he.symm.trans ((asksOnly_iff hasked).2 rfl))
      refine ⟨?_, fun c hc => ?_, fun c hc => ?_, fun c hc => ?_, fun c hc => ?_⟩
      · exact (find?_markers_call _ caller k work key).trans (if_neg fun h => hk h.1)
      · refine (mem_callers_call _ caller k work c).trans (or_iff_left (hne c hc))
      · exact (execution?_call hf caller k work c).trans (if_neg fun h => hne c hc h.1)
      · exact (leaderOf?_call hf caller k work c).trans (if_neg fun h => hne c hc h.1)
      · exact answer?_call _ caller k work c
  | advance leader work =>
    refine ⟨?_, fun c hc => ?_, fun c hc => ?_, fun c _ => ?_, fun c _ => ?_⟩
    · exact congrArg (Table.find? · key) (markers_advance _ leader work)
    · show c ∈ ((run empty before).advance leader work).callers ↔ _
      rw [(advance_frame _ leader work).1]
    · exact execution?_advance_of_ne _ (hne c hc) work
    · exact leaderOf?_advance _ leader work c
    · exact answer?_advance _ leader work c
  | finish leader how =>
    refine ⟨?_, fun c hc => ?_, fun c hc => ?_, fun c _ => ?_, fun c _ => ?_⟩
    · refine (find?_markers_finish _ leader how key).trans (if_neg ?_)
      rintro ⟨-, hkey⟩
      obtain ⟨x, hx, rfl⟩ := Option.map_eq_some_iff.1 hkey
      have hasked := askedFor?_of_execution? hx (.finish leader how :: after)
      exact Bool.false_ne_true (he.symm.trans ((asksOnly_iff hasked).2 rfl))
    · show c ∈ ((run empty before).finish leader how).callers ↔ _
      rw [(finish_frame _ leader how).1]
    · exact execution?_finish_of_ne _ (hne c hc) how
    · exact leaderOf?_finish _ leader how c
    · exact answer?_finish _ leader how c
  | deliver caller =>
    have hwork := sameWork_deliver (run empty before) caller
    refine ⟨?_, fun c _ => ?_, fun c _ => hwork.execution? c, fun c hc => ?_, fun c hc => ?_⟩
    · exact congrArg (Table.find? · key) hwork.markers
    · show c ∈ ((run empty before).deliver caller).callers ↔ _
      rw [hwork.callers]
    · exact (leaderOf?_deliver _ caller c).trans (if_neg fun h => hne c hc h.1)
    · refine (answer?_deliver _ caller c).trans ?_
      rw [if_neg (show c ≠ caller from hne c hc), Option.or_none]
  | abandon caller =>
    refine ⟨rfl, fun _ _ => Iff.rfl, fun _ _ => rfl, fun c hc => ?_, fun _ _ => rfl⟩
    exact (leaderOf?_abandon _ caller c).trans (if_neg (hne c hc))

/-! ## An event of the key -/

/-- Going on makes the same of equal executions. -/
theorem execution?_advance_congr {f g : Flight ι σ α} {leader : ι}
    (h : f.execution? leader = g.execution? leader) (work : σ) :
    (f.advance leader work).execution? leader = (g.advance leader work).execution? leader := by
  unfold advance Flight.work?
  rw [h]
  rcases hx : g.execution? leader with _ | ⟨m, key, w | how⟩
  · exact h
  · exact (execution?_setProgress_self (h.trans hx) _).trans (execution?_setProgress_self hx _).symm
  · exact h

theorem execution?_finish_congr {f g : Flight ι σ α} {leader : ι}
    (h : f.execution? leader = g.execution? leader) (how : Ending α) :
    (f.finish leader how).execution? leader = (g.finish leader how).execution? leader := by
  unfold finish
  rw [h]
  rcases hx : g.execution? leader with _ | ⟨m, key, w | how'⟩
  · exact h
  · exact (execution?_setProgress_self (h.trans hx) _).trans (execution?_setProgress_self hx _).symm
  · exact h

/-- What a caller of the key can pick up is the same on both boards: the leader it waits for has
asked for the same key. -/
theorem SameFor.picked {before after : List (Event ι σ α)} {key : String} {g : Flight ι σ α}
    (h : SameFor (before ++ after) key (run empty before) g) {caller : ι}
    (hc : asksOnly (before ++ after) key caller = true) :
    ((run empty before).leaderOf? caller).bind (run empty before).ending?
      = (g.leaderOf? caller).bind g.ending? := by
  rw [← h.leader caller hc]
  cases hwait : (run empty before).leaderOf? caller with
  | none => rfl
  | some l =>
    obtain ⟨k, hk, hl⟩ := askedFor?_of_leaderOf? hwait after
    have hasks : asksOnly (before ++ after) key l = true := by
      unfold asksOnly at hc ⊢
      rw [hl, ← hk]
      exact hc
    show (run empty before).ending? l = g.ending? l
    unfold ending?
    rw [h.execution l hasks]

/-- An event that concerns the key does the same on a board where only such events happened. -/
theorem SameFor.step {before after : List (Event ι σ α)} {e : Event ι σ α} {key : String}
    {g : Flight ι σ α} (h : SameFor (before ++ e :: after) key (run empty before) g)
    (hg : Sound g) (he : concerns (before ++ e :: after) key e = true) :
    SameFor (before ++ e :: after) key ((run empty before).step e) (g.step e) := by
  have hf := sound_run sound_empty before
  -- Each event reads the board at its own caller and key, and these are of the key: so it finds the
  -- same on both boards, and leaves the same there.
  cases e with
  | call caller k work =>
    show SameFor _ key ((run empty before).call caller k work) (g.call caller k work)
    by_cases hc : caller ∈ (run empty before).callers
    · rw [call_of_mem hc, call_of_mem ((h.called caller he).1 hc)]
      exact h
    · have hcg : caller ∉ g.callers := fun hin => hc ((h.called caller he).2 hin)
      have hk : k = key := (asksOnly_iff (askedFor?_of_call hc k work after)).1 he
      subst hk
      have hattached : (run empty before).attached caller k = g.attached caller k := by
        unfold attached
        rw [h.marker]
      refine ⟨?_, fun c hp => ?_, fun c hp => ?_, fun c hp => ?_, fun c hp => ?_⟩
      · rw [find?_markers_call, find?_markers_call, if_pos ⟨rfl, hc⟩, if_pos ⟨rfl, hcg⟩, hattached]
      · rw [mem_callers_call, mem_callers_call, h.called c hp]
      · rw [execution?_call hf, execution?_call hg, h.marker, h.execution c hp]
        simp only [hc, hcg]
      · rw [leaderOf?_call hf, leaderOf?_call hg, hattached, h.leader c hp]
        simp only [hc, hcg]
      · rw [answer?_call, answer?_call, h.answer c hp]
  | advance leader work =>
    show SameFor _ key ((run empty before).advance leader work) (g.advance leader work)
    refine ⟨?_, fun c hp => ?_, fun c hp => ?_, fun c hp => ?_, fun c hp => ?_⟩
    · rw [markers_advance, markers_advance, h.marker]
    · rw [(advance_frame _ leader work).1, (advance_frame _ leader work).1, h.called c hp]
    · by_cases hc : c = leader
      · rw [hc]
        exact execution?_advance_congr (h.execution leader he) work
      · rw [execution?_advance_of_ne _ hc, execution?_advance_of_ne _ hc, h.execution c hp]
    · rw [leaderOf?_advance, leaderOf?_advance, h.leader c hp]
    · rw [answer?_advance, answer?_advance, h.answer c hp]
  | finish leader how =>
    -- The marker that goes is the one of the leader's key, if its execution is underway.
    have hleader : asksOnly (before ++ .finish leader how :: after) key leader = true := he
    show SameFor _ key ((run empty before).finish leader how) (g.finish leader how)
    refine ⟨?_, fun c hp => ?_, fun c hp => ?_, fun c hp => ?_, fun c hp => ?_⟩
    · have hkey : (run empty before).key? leader = g.key? leader := by
        unfold Flight.key?
        rw [h.execution leader hleader]
      rw [find?_markers_finish, find?_markers_finish, h.work? hleader, hkey, h.marker]
    · rw [(finish_frame _ leader how).1, (finish_frame _ leader how).1, h.called c hp]
    · by_cases hc : c = leader
      · rw [hc]
        exact execution?_finish_congr (h.execution leader hleader) how
      · rw [execution?_finish_of_ne _ hc, execution?_finish_of_ne _ hc, h.execution c hp]
    · rw [leaderOf?_finish, leaderOf?_finish, h.leader c hp]
    · rw [answer?_finish, answer?_finish, h.answer c hp]
  | deliver caller =>
    have hworkf := sameWork_deliver (run empty before) caller
    have hworkg := sameWork_deliver g caller
    have hcaller : asksOnly (before ++ .deliver caller :: after) key caller = true := he
    have hpicked := h.picked hcaller
    show SameFor _ key ((run empty before).deliver caller) (g.deliver caller)
    refine ⟨?_, fun c hp => ?_, fun c hp => ?_, fun c hp => ?_, fun c hp => ?_⟩
    · rw [hworkf.markers, hworkg.markers, h.marker]
    · rw [hworkf.callers, hworkg.callers, h.called c hp]
    · rw [hworkf.execution?, hworkg.execution?, h.execution c hp]
    · rw [leaderOf?_deliver, leaderOf?_deliver, hpicked, h.leader c hp]
    · rw [answer?_deliver, answer?_deliver, hpicked, h.answer c hp]
  | abandon caller =>
    refine ⟨h.marker, h.called, h.execution, fun c hp => ?_, h.answer⟩
    show ((run empty before).abandon caller).leaderOf? c = (g.abandon caller).leaderOf? c
    rw [leaderOf?_abandon, leaderOf?_abandon, h.leader c hp]

/-! ## What starts and what ends -/

/-- A second call starts nothing. -/
theorem starts_of_mem {f : Flight ι σ α} {caller : ι} (hc : caller ∈ f.callers) (key : String)
    (work : σ) : f.starts (.call caller key work) = [] :=
  if_pos hc

/-- What an event starts for a key is what it starts on the other board, if it concerns the key, and
nothing otherwise. -/
theorem filter_starts {before after : List (Event ι σ α)} {e : Event ι σ α} {key : String}
    {g : Flight ι σ α} (h : SameFor (before ++ e :: after) key (run empty before) g) :
    ((run empty before).starts e).filter (fun x => x.key = key) =
      if concerns (before ++ e :: after) key e then g.starts e else [] := by
  cases e with
  | call caller k work =>
    by_cases hc : caller ∈ (run empty before).callers
    · rw [starts_of_mem hc, List.filter_nil]
      by_cases he : asksOnly (before ++ .call caller k work :: after) key caller = true
      · rw [concerns, Event.party, if_pos he, starts_of_mem ((h.called caller he).1 hc)]
      · rw [concerns, Event.party, if_neg he]
    · -- a first call: it concerns the key exactly if it is for the key
      have hasked := askedFor?_of_call hc k work after
      have hiff : asksOnly (before ++ .call caller k work :: after) key caller = true ↔ k = key :=
        asksOnly_iff hasked
      rw [starts_call hc, concerns, Event.party]
      by_cases hk : k = key
      · subst hk
        have hcg : caller ∉ g.callers := fun hin => hc ((h.called caller (hiff.2 rfl)).2 hin)
        rw [if_pos (hiff.2 rfl), starts_call hcg, h.marker]
        split
        · exact List.filter_cons_of_pos (decide_eq_true rfl)
        · rfl
      · rw [if_neg fun he => hk (hiff.1 he)]
        split
        · exact List.filter_cons_of_neg (by simpa using hk)
        · rfl
  | advance leader work => exact (ite_self _).symm
  | finish leader how => exact (ite_self _).symm
  | deliver caller => exact (ite_self _).symm
  | abandon caller => exact (ite_self _).symm

/-- What an event ends for a key is what it ends on the other board, if it concerns the key, and
nothing otherwise. -/
theorem filter_ends_asked {before after : List (Event ι σ α)} {e : Event ι σ α} {key : String}
    {g : Flight ι σ α} (h : SameFor (before ++ e :: after) key (run empty before) g) :
    ((run empty before).ends e).filter
        (fun x => askedFor? (before ++ e :: after) x.1 = some key) =
      if concerns (before ++ e :: after) key e then g.ends e else [] := by
  cases e with
  | finish leader how =>
    cases hwork : (run empty before).work? leader with
    | none =>
      rw [ends_finish_of_none hwork, List.filter_nil]
      by_cases he : asksOnly (before ++ .finish leader how :: after) key leader = true
      · rw [concerns, Event.party, if_pos he, ends_finish_of_none ((h.work? he).symm.trans hwork)]
      · rw [concerns, Event.party, if_neg he]
    | some w =>
      -- an execution that can end: the event concerns the key exactly if the execution is for it
      obtain ⟨k, hx⟩ := work?_eq_some.1 hwork
      have hasked := askedFor?_of_execution? hx (.finish leader how :: after)
      have hiff : asksOnly (before ++ .finish leader how :: after) key leader = true ↔ k = key :=
        asksOnly_iff hasked
      rw [ends_finish hwork, concerns, Event.party]
      by_cases hk : k = key
      · subst hk
        rw [if_pos (hiff.2 rfl), ends_finish ((h.work? (hiff.2 rfl)).symm.trans hwork)]
        exact List.filter_cons_of_pos (decide_eq_true hasked)
      · rw [if_neg fun he => hk (hiff.1 he)]
        refine List.filter_cons_of_neg fun h' => hk ?_
        have hsome := hasked.symm.trans (of_decide_eq_true h')
        exact Option.some.inj hsome
  | call caller k work => exact (ite_self _).symm
  | advance leader work => exact (ite_self _).symm
  | deliver caller => exact (ite_self _).symm
  | abandon caller => exact (ite_self _).symm

/-! ## Whole runs -/

theorem started_concat (f : Flight ι σ α) (events : List (Event ι σ α)) (e : Event ι σ α) :
    f.started (events ++ [e]) = f.started events ++ (f.run events).starts e := by
  rw [started_append]
  exact congrArg _ (List.append_nil _)

theorem ended_concat (f : Flight ι σ α) (events : List (Event ι σ α)) (e : Event ι σ α) :
    f.ended (events ++ [e]) = f.ended events ++ (f.run events).ends e := by
  induction events generalizing f with
  | nil => exact List.append_nil _
  | cons x xs ih =>
    show f.ends x ++ (f.step x).ended (xs ++ [e]) = f.ends x ++ (f.step x).ended xs ++ _
    rw [ih, List.append_assoc]
    rfl

/-- The run up to some event, and what of it concerns the key. -/
theorem sameFor_run (key : String) (before after : List (Event ι σ α)) :
    SameFor (before ++ after) key (run empty before)
        (run empty (before.filter (concerns (before ++ after) key))) ∧
      (started empty before).filter (fun x => x.key = key)
        = started empty (before.filter (concerns (before ++ after) key)) ∧
      (ended empty before).filter (fun x => askedFor? (before ++ after) x.1 = some key)
        = ended empty (before.filter (concerns (before ++ after) key)) := by
  induction before using List.reverseRecOn generalizing after with
  | nil => exact ⟨SameFor.refl _ key _, rfl, rfl⟩
  | append_singleton es e ih =>
    obtain ⟨hsame, hstarted, hended⟩ := ih (e :: after)
    have hrun : run empty (es ++ [e]) = (run empty es).step e := run_append empty es [e]
    rw [List.append_assoc, List.singleton_append, hrun, started_concat, ended_concat,
      List.filter_append, List.filter_append, List.filter_append, hstarted, hended,
      filter_starts hsame, filter_ends_asked hsame]
    cases he : concerns (es ++ e :: after) key e with
    | true =>
      rw [List.filter_cons_of_pos he, List.filter_nil, started_concat, ended_concat, run_append]
      exact ⟨hsame.step (sound_run sound_empty _) he, rfl, rfl⟩
    | false =>
      rw [List.filter_cons_of_neg (by simp [he]), List.filter_nil, List.append_nil]
      exact ⟨(sameFor_step_other he).trans hsame, List.append_nil _, List.append_nil _⟩

/-- A run of a board and what of it concerns one key. After every event of the run nobody who asks
for the key can tell the two boards apart: the key is in flight on both or on none, and everybody
waits for the same leader or for nobody, has the same answer, and has its own execution at the same
point. The works for the key are started in the same order and come to the same ends in the same
order. An event that concerns another key changes none of this. -/
theorem run_concerns (key : String) (before after : List (Event ι σ α)) :
    SameFor (before ++ after) key (run empty before)
        (run empty (before.filter (concerns (before ++ after) key))) ∧
      started empty (before.filter (concerns (before ++ after) key))
        = (started empty before).filter (fun x => x.key = key) ∧
      ended empty (before.filter (concerns (before ++ after) key))
        = (ended empty before).filter (fun x => askedFor? (before ++ after) x.1 = some key) ∧
      (∀ e rest, after = e :: rest → concerns (before ++ after) key e = false →
        SameFor (before ++ after) key ((run empty before).step e) (run empty before)) := by
  obtain ⟨hsame, hstarted, hended⟩ := sameFor_run key before after
  refine ⟨hsame, hstarted.symm, hended.symm, ?_⟩
  rintro e rest rfl he
  exact sameFor_step_other he

end Flight

end PeerCache
