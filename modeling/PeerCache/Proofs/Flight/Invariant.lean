import Mathlib.Data.List.Nodup
import PeerCache.Proofs.Flight.Step
/-!
# PeerCache — the invariant of a board

`Sound` is what holds of a board in every state that a run from the empty board reaches. The field
that carries the others is `marked`: a marker names a leader exactly when that leader's execution
for the key has not ended. So a new execution of a key is registered only when no other one is
underway, and an execution that ends takes away its own marker and nobody else's.

`sound_step` keeps it with one case per event; `sound_run` follows.
-/

namespace PeerCache

namespace Flight

variable {ι σ α : Type} [DecidableEq ι]

/-- The board is one that a run can reach. -/
structure Sound (f : Flight ι σ α) : Prop where
  leaders : (f.executions.map Execution.leader).Nodup
  called : ∀ x ∈ f.executions, x.leader ∈ f.callers
  /-- Markers are the executions underway. -/
  marked : ∀ key l, f.markers.find? key = some l ↔
    ∃ w, f.execution? l = some ⟨l, key, .underway w⟩
  waits : ∀ w ∈ f.waiting, w.1 ∈ f.callers ∧ ∃ x, f.execution? w.2 = some x
  answered : ∀ a ∈ f.answered, a.1 ∈ f.callers
  /-- A caller waits once or has been answered once, and not both. -/
  once : (f.waiting.map Prod.fst ++ f.answered.map Prod.fst).Nodup

theorem sound_empty : Sound (empty : Flight ι σ α) where
  leaders := List.nodup_nil
  called := by
    intro x hx
    cases hx
  marked := by
    intro key l
    constructor
    · intro h
      cases h
    · rintro ⟨w, h⟩
      cases h
  waits := by
    intro w hw
    cases hw
  answered := by
    intro a ha
    cases ha
  once := List.nodup_nil

/-! ## What it says of a caller -/

theorem mem_of_execution? {f : Flight ι σ α} {l : ι} {x : Execution ι σ α}
    (h : f.execution? l = some x) : x ∈ f.executions :=
  List.mem_of_find?_eq_some h

/-- Who has not called leads nothing. -/
theorem Sound.execution?_eq_none {f : Flight ι σ α} (hf : Sound f) {c : ι}
    (hc : c ∉ f.callers) : f.execution? c = none := by
  cases hx : f.execution? c with
  | none => rfl
  | some x =>
    have hcalled := hf.called x (mem_of_execution? hx)
    rw [leader_of_execution? hx] at hcalled
    exact absurd hcalled hc

/-- Who has not called neither waits nor has an answer. -/
theorem Sound.not_waiting {f : Flight ι σ α} (hf : Sound f) {c : ι} (hc : c ∉ f.callers) :
    c ∉ f.waiting.map Prod.fst ++ f.answered.map Prod.fst := by
  intro hmem
  rcases List.mem_append.1 hmem with hw | ha
  · obtain ⟨w, hin, rfl⟩ := List.mem_map.1 hw
    exact hc (hf.waits w hin).1
  · obtain ⟨a, hin, rfl⟩ := List.mem_map.1 ha
    exact hc (hf.answered a hin)

/-- The names of those who wait or have been answered, after one more caller has begun to wait. -/
theorem Sound.once_push {f : Flight ι σ α} (hf : Sound f) {c : ι} (hc : c ∉ f.callers) (l : ι) :
    ((f.waiting ++ [(c, l)]).map Prod.fst ++ f.answered.map Prod.fst).Nodup := by
  rw [List.map_append, List.map_cons, List.map_nil, List.append_assoc, List.singleton_append]
  refine List.nodup_middle.2 (List.nodup_cons.2 ⟨hf.not_waiting hc, hf.once⟩)

/-! ## One case per event -/

/-- Joining the execution that holds the marker keeps a board sound. -/
theorem Sound.join {f : Flight ι σ α} (hf : Sound f) {caller l : ι} {key : String}
    (hc : caller ∉ f.callers) (hmark : f.markers.find? key = some l) :
    Sound { f with
      waiting := f.waiting ++ [(caller, l)]
      callers := f.callers ++ [caller] } where
  leaders := hf.leaders
  called := fun x hx => List.mem_append_left _ (hf.called x hx)
  marked := hf.marked
  waits := by
    intro w hw
    rcases List.mem_append.1 hw with hw | hw
    · exact ⟨List.mem_append_left _ (hf.waits w hw).1, (hf.waits w hw).2⟩
    · obtain ⟨v, hx⟩ := (hf.marked key l).1 hmark
      rw [List.mem_singleton.1 hw]
      exact ⟨List.mem_append_right _ (List.mem_singleton.2 rfl), _, hx⟩
  answered := fun a ha => List.mem_append_left _ (hf.answered a ha)
  once := hf.once_push hc l

/-- Registering an execution for a key that is not in flight keeps a board sound; its marker is the
new one. -/
theorem Sound.register {f : Flight ι σ α} (hf : Sound f) {caller : ι} {key : String} (work : σ)
    (hc : caller ∉ f.callers) (hmark : f.markers.find? key = none) :
    Sound { f with
      executions := f.executions ++ [⟨caller, key, .underway work⟩]
      markers := f.markers.insert key caller
      waiting := f.waiting ++ [(caller, caller)]
      callers := f.callers ++ [caller] } := by
  have hnone := hf.execution?_eq_none hc
  -- the new execution is found under its leader; all others are found where they were
  have hpush := execution?_push f ⟨caller, key, .underway work⟩
  have hself := hpush caller
  rw [hnone, Option.none_or, if_pos rfl] at hself
  have hother : ∀ l, l ≠ caller →
      ({ f with executions := f.executions ++ [⟨caller, key, .underway work⟩] } :
        Flight ι σ α).execution? l = f.execution? l := by
    intro l hl
    have hl' := hpush l
    rw [if_neg (fun h => hl h.symm), Option.or_none] at hl'
    exact hl'
  refine ⟨?_, ?_, ?_, ?_, ?_, hf.once_push hc caller⟩
  · show ((f.executions ++ [_]).map Execution.leader).Nodup
    rw [List.map_append, List.map_cons, List.map_nil]
    refine List.nodup_append.2 ⟨hf.leaders, List.nodup_singleton _, ?_⟩
    intro a ha b hb hab
    obtain ⟨x, hx, rfl⟩ := List.mem_map.1 ha
    have hcaller := hf.called x hx
    rw [hab, List.mem_singleton.1 hb] at hcaller
    exact hc hcaller
  · intro x hx
    rcases List.mem_append.1 hx with hx | hx
    · exact List.mem_append_left _ (hf.called x hx)
    · rw [List.mem_singleton.1 hx]
      exact List.mem_append_right _ (List.mem_singleton.2 rfl)
  · intro key' l
    show (f.markers.insert key caller).find? key' = some l ↔
      ∃ w, ({ f with executions := f.executions ++ [⟨caller, key, .underway work⟩] } :
        Flight ι σ α).execution? l = some ⟨l, key', .underway w⟩
    rw [Table.find?_insert]
    by_cases hl : l = caller
    · subst hl
      rw [hself]
      by_cases hkey : key' = key
      · subst hkey
        simp
      · rw [if_neg hkey]
        constructor
        · intro h
          -- a marker of the caller would need an execution of the caller
          obtain ⟨w, hx⟩ := (hf.marked key' l).1 h
          rw [hnone] at hx
          cases hx
        · rintro ⟨w, h⟩
          cases h
          exact absurd rfl hkey
    · rw [hother l hl, ← hf.marked key' l]
      by_cases hkey : key' = key
      · subst hkey
        rw [if_pos rfl, hmark]
        constructor
        · intro h
          cases h
          exact absurd rfl hl
        · intro h
          cases h
      · rw [if_neg hkey]
  · intro w hw
    rcases List.mem_append.1 hw with hw | hw
    · obtain ⟨hcalled, x, hx⟩ := hf.waits w hw
      refine ⟨List.mem_append_left _ hcalled, x, ?_⟩
      have hne : w.2 ≠ caller := by
        rintro heq
        rw [heq, hnone] at hx
        cases hx
      exact (hother w.2 hne).trans hx
    · rw [List.mem_singleton.1 hw]
      exact ⟨List.mem_append_right _ (List.mem_singleton.2 rfl), _, hself⟩
  · exact fun a ha => List.mem_append_left _ (hf.answered a ha)

/-- A changed progress leaves leaders, callers and answers as they are; what is left to check are
the markers. -/
theorem Sound.setProgress {f g : Flight ι σ α} (hf : Sound f) {leader : ι} {p : Progress σ α}
    (hexec : g.executions = setProgress leader p f.executions) (hcallers : g.callers = f.callers)
    (hwaiting : g.waiting = f.waiting) (hanswered : g.answered = f.answered)
    (hmarked : ∀ key l, g.markers.find? key = some l ↔
      ∃ w, g.execution? l = some ⟨l, key, .underway w⟩) : Sound g := by
  -- The leaders stay, and with them most of the invariant.
  have hleaders : g.executions.map Execution.leader = f.executions.map Execution.leader := by
    rw [hexec]
    unfold Flight.setProgress
    rw [List.map_map]
    refine List.map_congr_left ?_
    intro x _
    show (if x.leader = leader then { x with progress := p } else x).leader = x.leader
    by_cases hx : x.leader = leader
    · rw [if_pos hx]
    · rw [if_neg hx]
  refine ⟨?_, ?_, hmarked, ?_, ?_, ?_⟩
  · rw [hleaders]
    exact hf.leaders
  · intro x hx
    have hmem := List.mem_map_of_mem (f := Execution.leader) hx
    rw [hleaders] at hmem
    obtain ⟨y, hy, heq⟩ := List.mem_map.1 hmem
    rw [hcallers, ← heq]
    exact hf.called y hy
  · intro w hw
    rw [hwaiting] at hw
    obtain ⟨hcalled, x, hx⟩ := hf.waits w hw
    have hset := execution?_setProgress f leader w.2 p
    rw [hx, Option.map_some] at hset
    unfold execution? at hset ⊢
    rw [hcallers, hexec]
    exact ⟨hcalled, _, hset⟩
  · rw [hanswered, hcallers]
    exact hf.answered
  · rw [hwaiting, hanswered]
    exact hf.once

theorem Sound.advance {f : Flight ι σ α} (hf : Sound f) {leader : ι} {key : String} {w : σ}
    (hx : f.execution? leader = some ⟨leader, key, .underway w⟩) (work : σ) :
    Sound { f with executions := Flight.setProgress leader (.underway work) f.executions } := by
  refine hf.setProgress rfl rfl rfl rfl ?_
  intro key' l
  show f.markers.find? key' = some l ↔ _
  rw [execution?_setProgress, hf.marked key' l]
  by_cases hl : l = leader
  · subst hl
    simp [hx]
  · simp [hl]

/-- An end keeps a board sound: the marker that goes is the one of this execution. -/
theorem Sound.finish {f : Flight ι σ α} (hf : Sound f) {leader : ι} {key : String} {w : σ}
    (hx : f.execution? leader = some ⟨leader, key, .underway w⟩) (how : Ending α) :
    Sound { f with
      executions := Flight.setProgress leader (.ended how) f.executions
      markers := f.markers.erase key } := by
  have hmark := (hf.marked key leader).2 ⟨w, hx⟩
  refine hf.setProgress rfl rfl rfl rfl ?_
  intro key' l
  show (f.markers.erase key).find? key' = some l ↔
    ∃ w', ({ f with executions := Flight.setProgress leader (.ended how) f.executions } :
      Flight ι σ α).execution? l = some ⟨l, key', .underway w'⟩
  rw [execution?_setProgress, Table.find?_erase]
  by_cases hl : l = leader
  · -- the leader's own execution has ended, and its marker was the one of `key`
    subst hl
    rw [hx]
    by_cases hkey : key' = key
    · simp [hkey]
    · rw [if_neg hkey, hf.marked key' l, hx]
      simp only [if_true, Option.map_some]
      constructor
      · rintro ⟨w', h⟩
        cases h
        exact absurd rfl hkey
      · rintro ⟨w', h⟩
        cases h
  · simp only [hl, if_false, Option.map_id']
    by_cases hkey : key' = key
    · subst hkey
      rw [if_pos rfl]
      constructor
      · intro h
        cases h
      · rintro h
        -- two executions of one key underway would share its marker
        have hmark' := (hf.marked key' l).2 h
        rw [hmark] at hmark'
        exact absurd (Option.some.inj hmark').symm hl
    · rw [if_neg hkey, hf.marked key' l]

/-- A delivery keeps a board sound: the caller waits no more where it is answered. -/
theorem Sound.deliver {f : Flight ι σ α} (hf : Sound f) {caller l : ι}
    (hw : (caller, l) ∈ f.waiting) (o : Outcome α) :
    Sound { f with
      waiting := f.waiting.filter fun w => w.1 ≠ caller
      answered := f.answered ++ [(caller, o)] } := by
  have hcalled := (hf.waits _ hw).1
  obtain ⟨hwaiting, hanswered, hapart⟩ := List.nodup_append.1 hf.once
  refine ⟨hf.leaders, hf.called, hf.marked, ?_, ?_, ?_⟩
  · exact fun w hw => hf.waits w (List.mem_of_mem_filter hw)
  · intro a ha
    rcases List.mem_append.1 ha with ha | ha
    · exact hf.answered a ha
    · rw [List.mem_singleton.1 ha]
      exact hcalled
  -- The caller leaves the waiting ones and joins the answered ones, among which it was not.
  · show ((f.waiting.filter fun w => w.1 ≠ caller).map Prod.fst
      ++ (f.answered ++ [(caller, o)]).map Prod.fst).Nodup
    rw [List.map_append, List.map_cons, List.map_nil]
    refine List.nodup_append.2 ⟨hwaiting.sublist (List.filter_sublist.map _), ?_, ?_⟩
    · refine List.nodup_append.2 ⟨hanswered, List.nodup_singleton _, ?_⟩
      intro a ha b hb hab
      rw [hab, List.mem_singleton.1 hb] at ha
      exact hapart caller (List.mem_map.2 ⟨_, hw, rfl⟩) caller ha rfl
    · intro a ha b hb hab
      obtain ⟨w, hmem, rfl⟩ := List.mem_map.1 ha
      obtain ⟨hmem, hne⟩ := List.mem_filter.1 hmem
      rcases List.mem_append.1 hb with hb | hb
      · exact hapart w.1 (List.mem_map.2 ⟨w, hmem, rfl⟩) b hb hab
      · rw [List.mem_singleton.1 hb] at hab
        simp [hab] at hne

/-- Abandoning keeps a board sound; the execution and its marker stay. -/
theorem Sound.abandon {f : Flight ι σ α} (hf : Sound f) (caller : ι) :
    Sound (f.abandon caller) where
  leaders := hf.leaders
  called := hf.called
  marked := hf.marked
  waits := fun w hw => hf.waits w (List.mem_of_mem_filter hw)
  answered := hf.answered
  once := hf.once.sublist ((List.filter_sublist.map _).append_right _)

/-! ## Steps and runs -/

/-- Every event keeps a board sound. -/
theorem sound_step {f : Flight ι σ α} (hf : Sound f) (e : Event ι σ α) : Sound (f.step e) := by
  -- What the event can do, and for each of it the lemma above.
  cases e with
  | call caller key work =>
    show Sound (f.call caller key work)
    rcases call_cases f caller key work with ⟨-, hsame⟩ | ⟨l, hc, hmark, hjoin⟩ | ⟨hc, hmark, hnew⟩
    · rw [hsame]
      exact hf
    · rw [hjoin]
      exact hf.join hc hmark
    · rw [hnew]
      exact hf.register work hc hmark
  | advance leader work =>
    show Sound (f.advance leader work)
    rcases advance_cases f leader work with hsame | ⟨key, w, hx, hadv⟩
    · rw [hsame]
      exact hf
    · rw [hadv]
      exact hf.advance hx work
  | finish leader how =>
    show Sound (f.finish leader how)
    rcases finish_cases f leader how with ⟨-, hsame⟩ | ⟨key, w, hx, hfin⟩
    · rw [hsame]
      exact hf
    · rw [hfin]
      exact hf.finish hx how
  | deliver caller =>
    show Sound (f.deliver caller)
    rcases deliver_cases f caller with hsame | ⟨l, how, hw, -, hdel⟩
    · rw [hsame]
      exact hf
    · rw [hdel]
      exact hf.deliver hw how.outcome
  | abandon caller => exact hf.abandon caller

theorem sound_run {f : Flight ι σ α} (hf : Sound f) (events : List (Event ι σ α)) :
    Sound (f.run events) := by
  induction events generalizing f with
  | nil => exact hf
  | cons e es ih => exact ih (sound_step hf e)

end Flight

end PeerCache
