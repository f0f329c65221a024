import PeerCache.Proofs.Flight.Outcomes
/-!
# PeerCache — markers and the executions behind them

The markers of a board are exactly the executions that have been registered and have not ended, and
no key has two of these:

* **`labels_run`** — the ledger of what a run starts lists the executions of the board by leader and
  key, so **`exists_unfinished_iff`** reads off the board what has not ended.
* **`markers_perm`** — one marker for each unfinished execution.
* **`markers_of_ends`**, **`markers_of_no_end`** — an end takes away the marker of its own
  execution, and nothing else takes a marker away.
* **`values_call_new`**, **`values_finish`** — the leaders that have a marker, as loads begin and
  end.

An end removes a marker by its key alone. That it finds its own one there is what the field `marked`
of `Sound` says.
-/

namespace PeerCache

/-! ## Entries that come and go -/

namespace Table

variable {κ ν : Type} [DecidableEq κ]

/-- A key that is new to a table comes in front of its entries. -/
theorem entries_insert {t : Table κ ν} {k : κ} (v : ν) (h : t.find? k = none) :
    (t.insert k v).entries = (k, v) :: t.entries := by
  show (k, v) :: t.entries.filter (fun e => e.1 ≠ k) = _
  rw [List.filter_eq_self.2]
  intro e he
  refine decide_eq_true fun hk => ?_
  have hfind := (t.mem_iff_find? e.1 e.2).1 he
  rw [hk, h] at hfind
  cases hfind

/-- A key that is taken out of a table was one entry of it. -/
theorem entries_erase_perm {t : Table κ ν} {k : κ} {v : ν} (h : t.find? k = some v) :
    t.entries.Perm ((k, v) :: (t.erase k).entries) := by
  refine (List.perm_ext_iff_of_nodup t.nodup.of_map ?_).2 ?_
  · refine List.nodup_cons.2 ⟨fun hmem => ?_, (t.erase k).nodup.of_map⟩
    have hne := (List.mem_filter.1 hmem).2
    simp at hne
  · rintro ⟨k', v'⟩
    rw [List.mem_cons, t.mem_iff_find?, (t.erase k).mem_iff_find?, find?_erase, Prod.mk.injEq]
    by_cases hk : k' = k
    · rw [hk, h, if_pos rfl]
      simp [eq_comm]
    · simp [hk]

end Table

namespace Flight

variable {ι σ α : Type} [DecidableEq ι]

/-! ## The ledger and the board -/

/-- The progress of an execution is neither its leader nor its key. -/
theorem labels_setProgress (leader : ι) (p : Progress σ α) (xs : List (Execution ι σ α)) :
    (setProgress leader p xs).map (fun x => (x.leader, x.key))
      = xs.map fun x => (x.leader, x.key) := by
  unfold setProgress
  rw [List.map_map]
  refine List.map_congr_left fun x _ => ?_
  show (fun x : Execution ι σ α => (x.leader, x.key)) (if x.leader = leader then _ else x) = _
  split
  · rfl
  · rfl

/-- An event adds the executions that it starts, and takes none off. -/
theorem labels_step (f : Flight ι σ α) (e : Event ι σ α) :
    (f.step e).executions.map (fun x => (x.leader, x.key))
      = (f.executions ++ f.starts e).map fun x => (x.leader, x.key) := by
  -- Only a call can add an execution; the others change the progress of one at most.
  cases e with
  | call caller key work =>
    show (f.call caller key work).executions.map _ = _
    unfold starts
    rcases call_cases f caller key work with ⟨hc, hsame⟩ | ⟨l, hc, hmark, hjoin⟩ | ⟨hc, hmark, hnew⟩
    · simp [hsame, hc]
    · simp [hjoin, hc, hmark]
    · simp [hnew, hc, hmark]
  | advance leader work =>
    show (f.advance leader work).executions.map _ = (f.executions ++ []).map _
    rw [List.append_nil]
    rcases advance_cases f leader work with hsame | ⟨key, w, -, hadv⟩
    · rw [hsame]
    · rw [hadv]
      exact labels_setProgress leader _ _
  | finish leader how =>
    show (f.finish leader how).executions.map _ = (f.executions ++ []).map _
    rw [List.append_nil]
    rcases finish_cases f leader how with ⟨-, hsame⟩ | ⟨key, w, -, hfin⟩
    · rw [hsame]
    · rw [hfin]
      exact labels_setProgress leader _ _
  | deliver caller =>
    show (f.deliver caller).executions.map _ = (f.executions ++ []).map _
    rw [List.append_nil]
    rcases deliver_cases f caller with hsame | ⟨l, how, -, -, hdel⟩
    · rw [hsame]
    · rw [hdel]
  | abandon caller =>
    show (f.abandon caller).executions.map _ = (f.executions ++ []).map _
    rw [List.append_nil]
    rfl

/-- The executions of a board are those it had and those that were started, in this order. -/
theorem labels_run (f : Flight ι σ α) (events : List (Event ι σ α)) :
    (f.run events).executions.map (fun x => (x.leader, x.key))
      = (f.executions ++ f.started events).map fun x => (x.leader, x.key) := by
  induction events generalizing f with
  | nil =>
    show f.executions.map _ = (f.executions ++ []).map _
    rw [List.append_nil]
  | cons e es ih =>
    show ((f.step e).run es).executions.map _ = (f.executions ++ (f.starts e ++ _)).map _
    rw [ih, List.map_append, labels_step, ← List.map_append, List.append_assoc]

/-- What a run from the start has ended are the executions with an end. -/
theorem mem_ended_iff {events : List (Event ι σ α)} {l : ι} :
    l ∈ (ended empty events).map Prod.fst ↔ (run empty events).ending? l ≠ none := by
  constructor
  · intro h
    obtain ⟨⟨l, how⟩, hmem, rfl⟩ := List.mem_map.1 h
    rw [ending?_of_mem_ended hmem]
    exact Option.some_ne_none how
  · intro h
    obtain ⟨how, hend⟩ := Option.ne_none_iff_exists'.1 h
    have hledger := filter_ended_empty events l
    rw [hend] at hledger
    have hmem : (l, how) ∈ (ended empty events).filter (fun x => x.1 = l) := by
      rw [hledger]
      exact List.mem_singleton.2 rfl
    exact List.mem_map.2 ⟨(l, how), (List.mem_filter.1 hmem).1, rfl⟩

/-- On a sound board each execution is the one of its leader. -/
theorem Sound.execution?_of_mem {f : Flight ι σ α} (hf : Sound f) {x : Execution ι σ α}
    (hx : x ∈ f.executions) : f.execution? x.leader = some x := by
  cases hfind : f.execution? x.leader with
  | none => exact absurd (decide_eq_true rfl) (List.find?_eq_none.1 hfind x hx)
  | some y =>
    rw [List.inj_on_of_nodup_map hf.leaders (mem_of_execution? hfind) hx
      (leader_of_execution? hfind)]

/-- The unfinished executions of a run are those that are underway on its board. -/
theorem exists_unfinished_iff {events : List (Event ι σ α)} {key : String} {l : ι} :
    (∃ x ∈ unfinished empty events, x.key = key ∧ x.leader = l) ↔
      ∃ w, (run empty events).execution? l = some ⟨l, key, .underway w⟩ := by
  have hlabels : (run empty events).executions.map (fun x => (x.leader, x.key))
      = (started empty events).map fun x => (x.leader, x.key) := labels_run empty events
  have hnot : ∀ x, x ∈ unfinished empty events ↔
      x ∈ started empty events ∧ (run empty events).ending? x.leader = none := by
    intro x
    unfold unfinished
    rw [List.mem_filter, decide_eq_true_eq, mem_ended_iff, not_not]
  -- Leaders and keys are those that were started, and only an end tells the rest apart.
  constructor
  · rintro ⟨x, hx, rfl, rfl⟩
    obtain ⟨hstarted, hend⟩ := (hnot x).1 hx
    have hlabel := List.mem_map_of_mem (f := fun x => (x.leader, x.key)) hstarted
    rw [← hlabels] at hlabel
    obtain ⟨y, hy, heq⟩ := List.mem_map.1 hlabel
    obtain ⟨hleader, hkey⟩ := Prod.mk.inj heq
    have hexec := (sound_run sound_empty events).execution?_of_mem hy
    obtain ⟨leader, key, p⟩ := y
    change leader = x.leader at hleader
    change key = x.key at hkey
    subst hleader hkey
    cases p with
    | underway w => exact ⟨w, hexec⟩
    | ended how =>
      rw [ending?_eq_some.2 ⟨_, hexec⟩] at hend
      cases hend
  · rintro ⟨w, hexec⟩
    have hlabel := List.mem_map_of_mem (f := fun x => (x.leader, x.key)) (mem_of_execution? hexec)
    rw [hlabels] at hlabel
    obtain ⟨x, hx, heq⟩ := List.mem_map.1 hlabel
    obtain ⟨hleader, hkey⟩ := Prod.mk.inj heq
    change x.leader = l at hleader
    refine ⟨x, (hnot x).2 ⟨hx, ?_⟩, hkey, hleader⟩
    rw [hleader]
    exact ending?_underway hexec

/-! ## The markers of a state -/

/-- A key has a marker exactly if an execution of it has started and not ended, and it is the marker
of this execution. -/
theorem find?_markers_iff {events : List (Event ι σ α)} {key : String} {l : ι} :
    (run empty events).markers.find? key = some l ↔
      ∃ x ∈ unfinished empty events, x.key = key ∧ x.leader = l :=
  ((sound_run sound_empty events).marked key l).trans exists_unfinished_iff.symm

/-- The markers are the unfinished executions, one each. -/
theorem markers_perm (events : List (Event ι σ α)) :
    ((unfinished empty events).map fun x => (x.key, x.leader)).Perm
      (run empty events).markers.entries := by
  have hleaders : ((unfinished empty events).map Execution.leader).Nodup := by
    have hlabels := congrArg (List.map Prod.fst) (labels_run (empty : Flight ι σ α) events)
    rw [List.map_map, List.map_map] at hlabels
    have hstarted : ((started empty events).map Execution.leader).Nodup := by
      have hf := (sound_run sound_empty events).leaders
      exact hlabels ▸ hf
    exact hstarted.sublist (List.filter_sublist.map _)
  refine (List.perm_ext_iff_of_nodup ?_ (run empty events).markers.nodup.of_map).2 ?_
  · refine List.Nodup.of_map Prod.snd ?_
    rw [List.map_map]
    exact hleaders
  · rintro ⟨key, l⟩
    rw [Table.mem_iff_find?, find?_markers_iff, List.mem_map]
    simp only [Prod.mk.injEq]

/-! ## What takes a marker away -/

/-- An execution that ends has the marker of its key, and takes this one away. -/
theorem markers_of_ends {f : Flight ι σ α} (hf : Sound f) {e : Event ι σ α} {l : ι}
    {how : Ending α} (h : (l, how) ∈ f.ends e) :
    ∃ key, f.markers.find? key = some l ∧
      ∀ k, (f.step e).markers.find? k = if k = key then none else f.markers.find? k := by
  obtain ⟨rfl, w, hwork⟩ := finish_of_mem_ends h
  obtain ⟨key, hx⟩ := work?_eq_some.1 hwork
  rcases finish_cases f l how with ⟨hnone, -⟩ | ⟨key', w', hx', hfin⟩
  · rw [hwork] at hnone
    cases hnone
  · rw [hx] at hx'
    cases hx'
    refine ⟨key, (hf.marked key l).2 ⟨w, hx⟩, fun k => ?_⟩
    show (f.finish l how).markers.find? k = _
    rw [hfin]
    exact Table.find?_erase f.markers key k

/-- A marker stays as long as nothing ends. -/
theorem markers_of_no_end {f : Flight ι σ α} {e : Event ι σ α} (h : f.ends e = [])
    {key : String} {l : ι} (hmark : f.markers.find? key = some l) :
    (f.step e).markers.find? key = some l := by
  -- Markers go by ends only, and come by calls that find none.
  cases e with
  | call caller k work =>
    show (f.call caller k work).markers.find? key = some l
    rcases call_cases f caller k work with ⟨-, hsame⟩ | ⟨m, -, -, hjoin⟩ | ⟨-, hno, hnew⟩
    · rw [hsame]
      exact hmark
    · rw [hjoin]
      exact hmark
    · -- the call found no marker of its own key, so it is for another one
      have hne : key ≠ k := by
        rintro rfl
        rw [hno] at hmark
        cases hmark
      rw [hnew]
      exact (Table.find?_insert f.markers k key caller).trans ((if_neg hne).trans hmark)
  | advance leader work =>
    show (f.advance leader work).markers.find? key = some l
    rcases advance_cases f leader work with hsame | ⟨k, w, -, hadv⟩
    · rw [hsame]
      exact hmark
    · rw [hadv]
      exact hmark
  | finish leader how =>
    show (f.finish leader how).markers.find? key = some l
    rcases finish_cases f leader how with ⟨-, hsame⟩ | ⟨k, w, hx, -⟩
    · rw [hsame]
      exact hmark
    · rw [ends_finish (work?_eq_some.2 ⟨k, hx⟩)] at h
      cases h
  | deliver caller =>
    show (f.deliver caller).markers.find? key = some l
    rcases deliver_cases f caller with hsame | ⟨m, how, -, -, hdel⟩
    · rw [hsame]
      exact hmark
    · rw [hdel]
      exact hmark
  | abandon caller => exact hmark

/-! ## Leaders with a marker -/

/-- Joining leaves the markers alone. -/
theorem values_call_join {f : Flight ι σ α} {caller l : ι} {key : String} (work : σ)
    (hmark : f.markers.find? key = some l) :
    (f.call caller key work).markers.values = f.markers.values := by
  rcases call_cases f caller key work with ⟨-, h⟩ | ⟨m, -, -, h⟩ | ⟨-, hno, -⟩
  · rw [h]
  · rw [h]
  · rw [hmark] at hno
    cases hno

/-- A call that starts an execution sets one marker more, for its caller. -/
theorem values_call_new {f : Flight ι σ α} {caller : ι} {key : String} (work : σ)
    (hc : caller ∉ f.callers) (hmark : f.markers.find? key = none) :
    (f.call caller key work).markers.values = caller :: f.markers.values := by
  rcases call_cases f caller key work with ⟨hcalled, -⟩ | ⟨m, -, hsome, -⟩ | ⟨-, -, h⟩
  · exact absurd hcalled hc
  · rw [hmark] at hsome
    cases hsome
  · rw [h]
    show ((f.markers.insert key caller).entries).map Prod.snd = _
    rw [Table.entries_insert caller hmark]
    rfl

theorem markers_advance (f : Flight ι σ α) (l : ι) (work : σ) :
    (f.advance l work).markers = f.markers := by
  rcases advance_cases f l work with h | ⟨key, w, -, h⟩
  · rw [h]
  · rw [h]

/-- An execution that goes on is where it has gone to. -/
theorem work?_advance {f : Flight ι σ α} {l : ι} {v : σ} (hwork : f.work? l = some v) (w : σ) :
    (f.advance l w).work? l = some w := by
  obtain ⟨key, hx⟩ := work?_eq_some.1 hwork
  unfold advance
  rw [hwork]
  exact work?_eq_some.2 ⟨key, execution?_setProgress_self hx (.underway w)⟩

/-- An end takes one marker away, the one of the execution that ends. -/
theorem values_finish {f : Flight ι σ α} (hf : Sound f) {l : ι} {w : σ}
    (hwork : f.work? l = some w) (how : Ending α) :
    f.markers.values.Perm (l :: (f.finish l how).markers.values) := by
  rcases finish_cases f l how with ⟨hnone, -⟩ | ⟨key, v, hx, h⟩
  · rw [hwork] at hnone
    cases hnone
  · rw [h]
    exact (Table.entries_erase_perm ((hf.marked key l).2 ⟨v, hx⟩)).map Prod.snd

theorem markers_deliver (f : Flight ι σ α) (caller : ι) :
    (f.deliver caller).markers = f.markers := by
  rcases deliver_cases f caller with h | ⟨l, how, -, -, h⟩
  · rw [h]
  · rw [h]

/-- A leader has a marker as long as its execution has not ended. -/
theorem Sound.mem_values_iff {f : Flight ι σ α} (hf : Sound f) {l : ι} :
    l ∈ f.markers.values ↔ ∃ w, f.work? l = some w := by
  constructor
  · intro h
    obtain ⟨⟨key, l⟩, hmem, rfl⟩ := List.mem_map.1 h
    obtain ⟨w, hx⟩ := (hf.marked key l).1 ((f.markers.mem_iff_find? key l).1 hmem)
    exact ⟨w, work?_eq_some.2 ⟨key, hx⟩⟩
  · rintro ⟨w, hwork⟩
    obtain ⟨key, hx⟩ := work?_eq_some.1 hwork
    have hmark := (hf.marked key l).2 ⟨w, hx⟩
    exact List.mem_map.2 ⟨(key, l), (f.markers.mem_iff_find? key l).2 hmark, rfl⟩

/-- A leader is attached to its own execution. -/
theorem bound_of_key? {events : List (Event ι σ α)} {l : ι} {key : String}
    (hkey : (run empty events).key? l = some key) : Bound (run empty events) l l key := by
  obtain ⟨before, work, hcall⟩ := exists_first_call_of_key? hkey
  have hbound := hcall.bound
  cases hmark : (run empty before).markers.find? key with
  | none => rwa [attached_of_no_marker hmark] at hbound
  | some m =>
    have hnone := hcall.execution?_eq_none hmark
    unfold key? at hkey
    rw [hnone] at hkey
    cases hkey

/-! ## Every state -/

/-- The markers of a board that a run from the start has reached. A key has one exactly if an
execution for it has been registered and has not ended; there is at most one such execution for a
key, and `inFlight` is the number of these keys. An execution that ends takes away the marker of its
key, which is its own; nothing else takes a marker away or puts another one in its place. When every
execution has ended no marker is left, and whoever calls then runs its own work. -/
theorem run_markers (events : List (Event ι σ α)) :
    (∀ key l, (run empty events).markers.find? key = some l ↔
      ∃ x ∈ unfinished empty events, x.key = key ∧ x.leader = l) ∧
    ((unfinished empty events).map Execution.key).Nodup ∧
    (run empty events).inFlight = ((unfinished empty events).map Execution.key).length ∧
    (∀ e l how, (l, how) ∈ (run empty events).ends e →
      ∃ x ∈ unfinished empty events, x.leader = l ∧
        (run empty events).markers.find? x.key = some l ∧
        ∀ key, ((run empty events).step e).markers.find? key =
          if key = x.key then none else (run empty events).markers.find? key) ∧
    (∀ e, (run empty events).ends e = [] → ∀ key l,
      (run empty events).markers.find? key = some l →
        ((run empty events).step e).markers.find? key = some l) ∧
    (unfinished empty events = [] →
      (run empty events).markers.entries = [] ∧ (run empty events).inFlight = 0 ∧
      ∀ caller key work, caller ∉ (run empty events).callers →
        (run empty events).attached caller key = caller ∧
        (run empty events).starts (.call caller key work) = [⟨caller, key, .underway work⟩]) := by
  have hperm := markers_perm events
  -- The markers are the unfinished executions one by one, so what holds of the ones holds of the
  -- others.
  have hkeys : ((unfinished empty events).map Execution.key).Perm
      ((run empty events).markers.entries.map Prod.fst) := by
    have hmap := hperm.map Prod.fst
    rw [List.map_map] at hmap
    exact hmap
  refine ⟨fun key l => find?_markers_iff, ?_, ?_, ?_, fun e h key l => markers_of_no_end h, ?_⟩
  · exact hkeys.nodup_iff.2 (run empty events).markers.nodup
  · rw [List.length_map]
    exact (hperm.length_eq.symm.trans (List.length_map _)).trans rfl
  · intro e l how hend
    obtain ⟨key, hmark, hstep⟩ := markers_of_ends (sound_run sound_empty events) hend
    obtain ⟨x, hx, rfl, hleader⟩ := find?_markers_iff.1 hmark
    exact ⟨x, hx, hleader, hmark, hstep⟩
  -- Without an unfinished execution there is no marker, and the next call starts anew.
  · intro hnone
    rw [hnone] at hperm
    have hempty := List.nil_perm.1 hperm
    have hfind : ∀ key, (run empty events).markers.find? key = none := by
      intro key
      unfold Table.find?
      rw [hempty]
      rfl
    refine ⟨hempty, congrArg List.length hempty, fun caller key work hc => ?_⟩
    refine ⟨attached_of_no_marker (hfind key) caller, ?_⟩
    rw [starts_call hc, if_pos (hfind key)]

end Flight

end PeerCache
