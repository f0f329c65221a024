import PeerCache.Flight.Selection
import PeerCache.Proofs.Flight.Callers
/-!
# PeerCache — callers that stop waiting

A caller that stops waiting takes nothing with it. The run of a board is laid beside the run in
which some callers, leaders included, keep waiting, and the two boards are compared after every
event:

* **`Outwaits`** — the second board has the same executions, markers and callers, and every caller
  waits for the same leader and has the same answer, unless it is one that has stopped on the first
  board and so neither waits there nor has an answer.
* **`Outwaits.abandon`** — it survives an abandonment on the first board alone.
* **`Outwaits.step`** — it survives any event that happens on both.
-/

namespace PeerCache

namespace Flight

variable {ι σ α : Type} [DecidableEq ι] {who : ι → Bool} {f g : Flight ι σ α}

/-! ## Two boards side by side -/

/-- A caller waits for the same leader on both boards and has the same answer, or it is one of
`who` and has stopped waiting on board `f`. -/
def SameWait (who : ι → Bool) (f g : Flight ι σ α) (c : ι) : Prop :=
  (f.leaderOf? c = g.leaderOf? c ∧ f.answer? c = g.answer? c) ∨
    (who c = true ∧ c ∈ f.callers ∧ f.leaderOf? c = none ∧ f.answer? c = none)

/-- On board `g` the callers of `who` have kept waiting; board `f` differs in nothing else. -/
structure Outwaits (who : ι → Bool) (f g : Flight ι σ α) : Prop extends SameWork f g where
  waits : ∀ c, SameWait who f g c

theorem Outwaits.refl (who : ι → Bool) (f : Flight ι σ α) : Outwaits who f f where
  executions := rfl
  markers := rfl
  callers := rfl
  waits := fun _ => Or.inl ⟨rfl, rfl⟩

/-- One of them gives up on the first board and keeps waiting on the other. -/
theorem Outwaits.abandon (h : Outwaits who f g) (hf : Sound f) {caller : ι}
    (hwho : who caller = true) : Outwaits who (f.abandon caller) g := by
  refine ⟨⟨h.executions, h.markers, h.callers⟩, fun c => ?_⟩
  unfold SameWait
  rw [leaderOf?_abandon, answer?_abandon]
  by_cases hc : c = caller
  · rw [if_pos hc, hc]
    rcases h.waits caller with ⟨hleader, hanswer⟩ | ⟨-, hcalled, -, hnone⟩
    · by_cases hcalled : caller ∈ f.callers
      · cases hold : f.answer? caller with
        | none => exact Or.inr ⟨hwho, hcalled, rfl, rfl⟩
        | some o =>
          -- it has its answer, so there was no wait to give up
          left
          rw [← hleader, hf.leaderOf?_of_answer? hold, ← hanswer, hold]
          exact ⟨rfl, rfl⟩
      · left
        rw [← hleader, hf.leaderOf?_eq_none hcalled]
        exact ⟨rfl, hanswer⟩
    · exact Or.inr ⟨hwho, hcalled, rfl, hnone⟩
  · rw [if_neg hc]
    exact h.waits c

/-- Any event that happens on both boards keeps them alike. -/
theorem Outwaits.step (h : Outwaits who f g) (hf : Sound f) (hg : Sound g) (e : Event ι σ α) :
    Outwaits who (f.step e) (g.step e) := by
  refine ⟨h.toSameWork.step e, fun c => ?_⟩
  -- The work is the same on both boards anyway; for the waiting, a caller either is alike on both
  -- or has given up on `f`.
  cases e with
  | call caller key work =>
    show SameWait who (f.call caller key work) (g.call caller key work) c
    have hattached : f.attached caller key = g.attached caller key := by
      unfold attached
      rw [h.markers]
    unfold SameWait
    rw [leaderOf?_call hf, leaderOf?_call hg, answer?_call, answer?_call, hattached, ← h.callers]
    rcases h.waits c with ⟨hleader, hanswer⟩ | ⟨hwho, hcalled, hleader, hanswer⟩
    · rw [hleader]
      exact Or.inl ⟨rfl, hanswer⟩
    -- Who has given up has called before, and no call changes anything for it.
    · have hnot : ¬ (c = caller ∧ caller ∉ f.callers) := fun hc => hc.2 (hc.1 ▸ hcalled)
      rw [if_neg hnot]
      exact Or.inr ⟨hwho, (mem_callers_call f caller key work c).2 (Or.inl hcalled), hleader,
        hanswer⟩
  | advance leader work =>
    show SameWait who (f.advance leader work) (g.advance leader work) c
    unfold SameWait
    rw [leaderOf?_advance, leaderOf?_advance, answer?_advance, answer?_advance,
      (advance_frame f leader work).1]
    exact h.waits c
  | finish leader how =>
    show SameWait who (f.finish leader how) (g.finish leader how) c
    unfold SameWait
    rw [leaderOf?_finish, leaderOf?_finish, answer?_finish, answer?_finish,
      (finish_frame f leader how).1]
    exact h.waits c
  | deliver caller =>
    show SameWait who (f.deliver caller) (g.deliver caller) c
    unfold SameWait
    rw [leaderOf?_deliver, leaderOf?_deliver, answer?_deliver, answer?_deliver]
    rcases h.waits c with ⟨hleader, hanswer⟩ | ⟨hwho, hcalled, hleader, hanswer⟩
    · left
      by_cases hc : c = caller
      · have hpicked : (f.leaderOf? caller).bind f.ending?
            = (g.leaderOf? caller).bind g.ending? := by
          rw [← hc, hleader]
          exact congrArg _ (funext h.toSameWork.ending?)
        rw [hpicked, hleader, hanswer]
        exact ⟨rfl, rfl⟩
      · rw [if_neg fun hp => hc hp.1, if_neg fun hp => hc hp.1, if_neg hc, if_neg hc, hleader,
          hanswer]
        exact ⟨rfl, rfl⟩
    · -- it has stopped, so there is nothing for it to pick up
      right
      refine ⟨hwho, (later_step f (.deliver caller)).callers c hcalled, ?_, ?_⟩
      · rw [hleader, ite_self]
      · by_cases hc : c = caller
        · rw [if_pos hc, ← hc, hleader, hanswer]
          rfl
        · rw [if_neg hc, hanswer]
          rfl
  | abandon caller =>
    show SameWait who (f.abandon caller) (g.abandon caller) c
    unfold SameWait
    rw [leaderOf?_abandon, leaderOf?_abandon, answer?_abandon, answer?_abandon]
    rcases h.waits c with ⟨hleader, hanswer⟩ | ⟨hwho, hcalled, hleader, hanswer⟩
    · rw [hleader]
      exact Or.inl ⟨rfl, hanswer⟩
    · rw [hleader, ite_self]
      exact Or.inr ⟨hwho, hcalled, rfl, hanswer⟩

/-! ## Whole runs -/

omit [DecidableEq ι] in
theorem patient_append (who : ι → Bool) (before after : List (Event ι σ α)) :
    patient who (before ++ after) = patient who before ++ patient who after :=
  List.filter_append before after

omit [DecidableEq ι] in
/-- What is left out is that one of them gives up. -/
theorem eq_abandon_of_isAbandonBy {e : Event ι σ α} (he : e.isAbandonBy who = true) :
    ∃ caller, e = .abandon caller ∧ who caller = true := by
  cases e with
  | abandon caller => exact ⟨caller, rfl, he⟩
  | call caller key work => cases he
  | advance leader work => cases he
  | finish leader how => cases he
  | deliver caller => cases he

/-- The two runs side by side, to their ends: the same works start and end, in the same order. -/
theorem Outwaits.run (h : Outwaits who f g) (hf : Sound f) (hg : Sound g)
    (events : List (Event ι σ α)) :
    Outwaits who (f.run events) (g.run (patient who events)) ∧
      f.started events = g.started (patient who events) ∧
      f.ended events = g.ended (patient who events) := by
  induction events generalizing f g with
  | nil => exact ⟨h, rfl, rfl⟩
  | cons e es ih =>
    cases he : e.isAbandonBy who with
    | true =>
      -- left out of the second run; it starts nothing and ends nothing
      obtain ⟨caller, rfl, hwho⟩ := eq_abandon_of_isAbandonBy he
      have hkept : patient who (.abandon caller :: es) = patient who es :=
        List.filter_cons_of_neg (by simp [he])
      rw [hkept]
      exact ih (h.abandon hf hwho) (hf.abandon caller) hg
    | false =>
      have hkept : patient who (e :: es) = e :: patient who es :=
        List.filter_cons_of_pos (by simp [he])
      obtain ⟨hrun, hstarted, hended⟩ := ih (h.step hf hg e) (sound_step hf e) (sound_step hg e)
      rw [hkept]
      refine ⟨hrun, ?_, ?_⟩
      · exact congrArg₂ (· ++ ·) (h.toSameWork.starts e) hstarted
      · exact congrArg₂ (· ++ ·) (h.toSameWork.ends e) hended

/-- The run of a board and the same run in which the callers of `who` keep waiting. The same works
are started, in the same order, and come to the same ends, in the same order. After every event of
the run the executions, how far each has come and the keys in flight are the same; every caller
outside `who` waits for the same leader and has been answered the same; and whoever has been
answered has been answered the same in the run that keeps waiting. -/
theorem run_patient (who : ι → Bool) (events : List (Event ι σ α)) :
    started empty (patient who events) = started empty events ∧
    ended empty (patient who events) = ended empty events ∧
    ∀ before after, events = before ++ after →
      patient who events = patient who before ++ patient who after ∧
      (run empty (patient who before)).executions = (run empty before).executions ∧
      (run empty (patient who before)).markers = (run empty before).markers ∧
      (run empty (patient who before)).inFlight = (run empty before).inFlight ∧
      (∀ caller, who caller = false →
        (run empty (patient who before)).leaderOf? caller = (run empty before).leaderOf? caller ∧
        (run empty (patient who before)).answer? caller = (run empty before).answer? caller) ∧
      (∀ caller o, (run empty before).answer? caller = some o →
        (run empty (patient who before)).answer? caller = some o) := by
  -- At every prefix, the patient run and the run itself are boards of this kind.
  have hruns := fun es : List (Event ι σ α) =>
    (Outwaits.refl who empty).run sound_empty sound_empty es
  obtain ⟨-, hstarted, hended⟩ := hruns events
  refine ⟨hstarted.symm, hended.symm, ?_⟩
  rintro before after rfl
  obtain ⟨hrun, -, -⟩ := hruns before
  refine ⟨patient_append who before after, hrun.executions.symm, hrun.markers.symm, ?_, ?_, ?_⟩
  · exact congrArg Table.size hrun.markers.symm
  · intro caller hwho
    rcases hrun.waits caller with ⟨hleader, hanswer⟩ | ⟨hstopped, -⟩
    · exact ⟨hleader.symm, hanswer.symm⟩
    · rw [hwho] at hstopped
      cases hstopped
  · intro caller o ho
    rcases hrun.waits caller with ⟨-, hanswer⟩ | ⟨-, -, -, hnone⟩
    · exact hanswer.symm.trans ho
    · rw [ho] at hnone
      cases hnone

end Flight

end PeerCache
