import Mathlib.Data.List.Induction
import PeerCache.Proofs.Group.Solo
import PeerCache.Proofs.Lru.Stack
/-!
# PeerCache — hits and the history of calls

For calls that are made one after another, what a group holds can be told from the calls alone. The
list of the entries that they read, the one read last in front, grows by one rule
(**`accessed_concat`**), and what the store holds is what its budget keeps of this list
(**`holds_took`**). So a call is a hit if its entry is kept, which is a question about the calls
since the one that last read it (**`mem_kept_accessed`**).
-/

namespace PeerCache

namespace Group

/-! ## The entries that were read -/

/-- What a first list adds, without repetition, to a second is what is in the first only. -/
theorem dedup_append_eq {α : Type} [DecidableEq α] (first second : List α) :
    (first ++ second).dedup = first.dedup.filter (· ∉ second) ++ second.dedup := by
  induction first with
  | nil => rfl
  | cons a first ih =>
    by_cases hmem : a ∈ first
    · rw [List.cons_append, List.dedup_cons_of_mem hmem,
        List.dedup_cons_of_mem (List.mem_append_left second hmem), ih]
    · rw [List.cons_append, List.dedup_cons_of_notMem hmem]
      by_cases hlater : a ∈ second
      · rw [List.dedup_cons_of_mem (List.mem_append_right first hlater), ih]
        simp [hlater]
      · rw [List.dedup_cons_of_notMem (by simp [hmem, hlater]), ih]
        simp [hlater]

/-- Earlier calls are behind those made since, as far as these have not touched the same entries. -/
theorem accessed_append (source : Source) (first second : List Call) :
    accessed source (first ++ second) =
      accessed source second ++ (accessed source first).filter (· ∉ accessed source second) := by
  simp [accessed, dedup_append_eq]

/-- A call is for an entry exactly if its key is not empty and the source has this value for it. -/
theorem entry?_eq_some {source : Source} {c : Call} {e : String × ByteView} :
    c.entry? source = some e ↔ c.key ≠ "" ∧ e.1 = c.key ∧ source c.key = .ok e.2.bytes := by
  obtain ⟨key, ⟨bytes⟩⟩ := e
  unfold Call.entry?
  split
  next hkey => simp [hkey]
  next hkey =>
    split
    next b hsource => simp [hkey, hsource, eq_comm]
    next text hsource => simp [hsource]

/-- The source gives a key one value. -/
theorem entry?_congr {source : Source} {c d : Call} (h : d.key = c.key) :
    d.entry? source = c.entry? source := by
  unfold Call.entry?
  rw [h]

/-- A call is for no entry exactly if its key is empty or the source fails for it. -/
theorem entry?_eq_none {source : Source} {c : Call} :
    c.entry? source = none ↔ c.key = "" ∨ ∃ text, source c.key = .error text := by
  unfold Call.entry?
  split
  next hkey => simp [hkey]
  next hkey =>
    split
    next b hsource => simp [hkey, hsource]
    next text hsource => simp [hsource]

/-- What was accessed are the entries of the calls. -/
theorem mem_accessed {source : Source} {calls : List Call} {e : String × ByteView} :
    e ∈ accessed source calls ↔ ∃ c ∈ calls, c.entry? source = some e := by
  simp [accessed]

/-- A source has one value for a key, so there is one entry of it. -/
theorem eq_of_mem_accessed {source : Source} {calls : List Call} {c : Call}
    {e f : String × ByteView} (he : c.entry? source = some e) (hf : f ∈ accessed source calls)
    (hkey : f.1 = e.1) : f = e := by
  obtain ⟨d, -, hd⟩ := mem_accessed.1 hf
  have hdkey := (entry?_eq_some.1 hd).2.1
  have hckey := (entry?_eq_some.1 he).2.1
  rw [entry?_congr (hdkey.symm.trans (hkey.trans hckey)), he] at hd
  exact (Option.some.inj hd).symm

/-- The keys of what was accessed are distinct. -/
theorem accessed_keys_nodup (source : Source) (calls : List Call) :
    ((accessed source calls).map Prod.fst).Nodup := by
  have hnodup : (accessed source calls).Nodup := List.nodup_reverse.2 (List.nodup_dedup _)
  apply hnodup.map_on
  intro e he f hf hkey
  obtain ⟨c, -, hc⟩ := mem_accessed.1 hf
  exact eq_of_mem_accessed hc he hkey

/-- A call brings its entry to the front. -/
theorem accessed_concat (source : Source) (calls : List Call) (c : Call) :
    accessed source (calls ++ [c]) =
      match c.entry? source with
      | none => accessed source calls
      | some e => e :: Recency.without e.1 (accessed source calls) := by
  rw [accessed_append]
  cases hc : c.entry? source with
  | none =>
    have hnone : accessed source [c] = [] := by simp [accessed, hc]
    simp [hnone]
  | some e =>
    have hone : accessed source [c] = [e] := by simp [accessed, hc]
    rw [hone]
    show [e] ++ _ = [e] ++ _
    congr 1
    apply List.filter_congr
    intro f hf
    by_cases hkey : f.1 = e.1
    · simp [eq_of_mem_accessed hc hf hkey]
    · have hne : f ≠ e := fun heq => hkey (heq ▸ rfl)
      simp [hkey, hne]

/-! ## Since the last access -/

/-- Where something is in a list there is a last one. -/
theorem exists_last {α : Type} {p : α → Prop} {l : List α} (h : ∃ x ∈ l, p x) :
    ∃ before x after, l = before ++ x :: after ∧ p x ∧ ∀ y ∈ after, ¬ p y := by
  induction l with
  | nil => simp at h
  | cons a l ih =>
    by_cases hrest : ∃ x ∈ l, p x
    · obtain ⟨before, x, after, rfl, hx, hafter⟩ := ih hrest
      exact ⟨a :: before, x, after, rfl, hx, hafter⟩
    · obtain ⟨x, hx, hpx⟩ := h
      rcases List.mem_cons.1 hx with rfl | hx
      · exact ⟨[], x, l, rfl, hpx, fun y hy hpy => hrest ⟨y, hy, hpy⟩⟩
      · exact absurd ⟨x, hx, hpx⟩ hrest

/-- The entry of a key that has been called is kept if all that was read since fits with it. -/
theorem mem_kept_accessed {source : Source} {maxBytes : Nat} {c d : Call}
    {e : String × ByteView} (he : c.entry? source = some e) (hkey : d.key = c.key)
    (before : List Call) {after : List Call} (hafter : ∀ x ∈ after, x.key ≠ c.key) :
    e ∈ Recency.kept maxBytes (accessed source (before ++ d :: after)) ↔
      Recency.Fits maxBytes (accessed source (d :: after)) := by
  have hd : d.entry? source = some e := (entry?_congr hkey).trans he
  have hout : e ∉ accessed source after := by
    intro hmem
    obtain ⟨x, hx, hxe⟩ := mem_accessed.1 hmem
    have h₁ := (entry?_eq_some.1 hxe).2.1
    have h₂ := (entry?_eq_some.1 he).2.1
    exact hafter x hx (h₁.symm.trans h₂)
  have hsince : accessed source (d :: after) = accessed source after ++ [e] := by
    have hone : accessed source [d] = [e] := by simp [accessed, hd]
    rw [show d :: after = [d] ++ after from rfl, accessed_append, hone]
    simp [hout]
  rw [accessed_append, hsince, List.append_assoc]
  exact Recency.mem_kept_iff hout

/-! ## The store -/

/-- What the store of a group holds after some calls: what the budget keeps of the entries that they
read. -/
def Holds (source : Source) (maxBytes : Nat) (calls : List Call) (g : Group Nat) : Prop :=
  g.store.Models ⟨maxBytes, Recency.kept maxBytes (accessed source calls)⟩

variable {source : Source} {maxBytes : Nat} {calls : List Call} {c : Call} {g h : Group Nat}

/-- To put a call's entry in front of what is kept is to keep what the calls have read with it. -/
theorem kept_concat_of_entry {e : String × ByteView} (he : c.entry? source = some e) :
    Recency.kept maxBytes (e :: Recency.without e.1
        (Recency.kept maxBytes (accessed source calls))) =
      Recency.kept maxBytes (accessed source (calls ++ [c])) := by
  rw [accessed_concat, he]
  exact Recency.kept_touch (fun f hf hkey => eq_of_mem_accessed he hf hkey)
    (accessed_keys_nodup source calls)

/-- A call leaves in the store what is kept of all calls with it, and is a hit if its entry was kept
before. -/
theorem holds_took (hg : Holds source maxBytes calls g) (ht : Took source c g h) :
    Holds source maxBytes (calls ++ [c]) h ∧
      (h.counters.hits = g.counters.hits + 1 ↔
        ∃ e ∈ Recency.kept maxBytes (accessed source calls), c.entry? source = some e) := by
  obtain ⟨hvalue, hmodels⟩ := Store.Models.get hg c.key
  cases ht with
  | refused hkey hstore hhits =>
    have hnone : c.entry? source = none := entry?_eq_none.2 (Or.inl hkey)
    unfold Holds
    rw [accessed_concat, hnone, hstore]
    exact ⟨hg, by simp [hhits]⟩
  | hit value hkey hget hstore hhits =>
    obtain ⟨hmem, hfront⟩ := Recency.get_eq_some (hvalue.symm.trans hget)
    -- what is kept is an entry that was read, and this call reads the same one
    have he : c.entry? source = some (c.key, value) := by
      obtain ⟨d, -, hd⟩ := mem_accessed.1 ((Recency.kept_spec _ _).1.subset hmem)
      rw [← hd]
      exact entry?_congr (entry?_eq_some.1 hd).2.1
    have hfits : Recency.Fits maxBytes ((c.key, value) :: Recency.without c.key
        (Recency.kept maxBytes (accessed source calls))) :=
      (Recency.kept_spec maxBytes (accessed source calls)).2.1.touch hmem
    unfold Holds
    rw [← kept_concat_of_entry he, Recency.kept_of_fits hfits, hstore]
    rw [hfront] at hmodels
    exact ⟨hmodels, by simpa [hhits, he] using hmem⟩
  | missed hkey hget hstore hhits =>
    obtain ⟨hout, hsame⟩ := Recency.get_eq_none (hvalue.symm.trans hget)
    rw [hsame] at hmodels
    have hno : ¬ ∃ e ∈ Recency.kept maxBytes (accessed source calls), c.entry? source = some e := by
      rintro ⟨e, hmem, he⟩
      exact hout e hmem (entry?_eq_some.1 he).2.1
    refine ⟨?_, by simp only [hhits, hno, iff_false]; omega⟩
    unfold Holds
    rw [hstore]
    cases hsource : source c.key with
    | error text =>
      rw [accessed_concat, entry?_eq_none.2 (Or.inr ⟨text, hsource⟩)]
      exact hmodels
    | ok bytes =>
      have he : c.entry? source = some (c.key, ⟨bytes⟩) := entry?_eq_some.2 ⟨hkey, rfl, hsource⟩
      rw [← kept_concat_of_entry he]
      exact (hmodels.insert c.key ⟨bytes⟩).2

/-! ## Whole lists of calls -/

theorem afterCalls_concat (g : Group Nat) (source : Source) (calls : List Call) (c : Call) :
    g.afterCalls source (calls ++ [c]) =
      (g.afterCalls source calls).run (c.events source calls.length) := by
  simp [afterCalls, callEvents, List.zipIdx_append, run_append]

theorem idle_new (name : String) (policy : RemotePolicy) (maxBytes : Nat) :
    (new name maxBytes policy : Group Nat).Idle 0 := by
  have hnew : (new name maxBytes policy : Group Nat).Unused :=
    unused_new name maxBytes policy false
  refine ⟨hnew.seated, fun access => ?_, fun access key => ?_, by simp [new]⟩
  · rw [hnew.boards access]
    exact Flight.sound_empty
  · rw [hnew.boards access]
    rfl

/-- After any calls a group is idle and holds the newest of what was accessed that fits. -/
theorem holds_afterCalls (name : String) (policy : RemotePolicy) (source : Source)
    (maxBytes : Nat) (calls : List Call) :
    ((new name maxBytes policy).afterCalls source calls).Idle calls.length ∧
      Holds source maxBytes calls ((new name maxBytes policy).afterCalls source calls) := by
  induction calls using List.reverseRecOn with
  | nil =>
    refine ⟨idle_new name policy maxBytes, ?_⟩
    have hnone : Recency.kept maxBytes (accessed source []) = [] := by
      simp [accessed, Recency.kept, Recency.within]
    unfold Holds
    rw [hnone]
    exact Store.models_new maxBytes
  | append_singleton calls c ih =>
    obtain ⟨hidle, hholds⟩ := ih
    obtain ⟨hidle', htook⟩ := took_call hidle source c
    rw [afterCalls_concat, List.length_append]
    exact ⟨hidle', (holds_took hholds htook).1⟩

/-- A call hits exactly if the last call for its key was for an entry that still fits with all that
was accessed since. -/
theorem hits_iff (name : String) (policy : RemotePolicy) (source : Source) (maxBytes : Nat)
    (calls : List Call) (c : Call) :
    Hits (new name maxBytes policy) source calls c ↔
      ∃ before d after, calls = before ++ d :: after ∧ d.key = c.key ∧
        (∀ x ∈ after, x.key ≠ c.key) ∧ (c.entry? source).isSome ∧
        Recency.Fits maxBytes (accessed source (d :: after)) := by
  obtain ⟨hidle, hholds⟩ := holds_afterCalls name policy source maxBytes calls
  unfold Hits
  rw [afterCalls_concat, (holds_took hholds (took_call hidle source c).2).2]
  constructor
  · rintro ⟨e, hmem, he⟩
    obtain ⟨d, hd, hde⟩ := mem_accessed.1 ((Recency.kept_spec _ _).1.subset hmem)
    have hkey : d.key = c.key :=
      (entry?_eq_some.1 hde).2.1.symm.trans (entry?_eq_some.1 he).2.1
    obtain ⟨before, d, after, rfl, hkey, hafter⟩ :=
      exists_last (p := fun x : Call => x.key = c.key) ⟨d, hd, hkey⟩
    exact ⟨before, d, after, rfl, hkey, hafter, by simp [he],
      (mem_kept_accessed he hkey before hafter).1 hmem⟩
  · rintro ⟨before, d, after, rfl, hkey, hafter, hsome, hfits⟩
    obtain ⟨e, he⟩ := Option.isSome_iff_exists.1 hsome
    exact ⟨e, (mem_kept_accessed he hkey before hafter).2 hfits, he⟩

/-- **Hits and the history of calls.** A group without a router serves calls that are made one after
another from a source that answers each key always the same way. After any calls the store holds the
longest part of the entries that they have read, beginning with the one read last, that fits the
budget (all of them without a budget). So a call is a hit exactly when there was a call for its key
before, the source has a value for it, and the distinct entries read since the last such call, with
it, fit; and what is a hit under a budget is a hit under every larger one, and without one. -/
theorem hits_of_history (name : String) (policy : RemotePolicy) (source : Source) (maxBytes : Nat)
    (calls : List Call) :
    (((new name maxBytes policy).afterCalls source calls).store.entries <+: accessed source calls ∧
      Recency.Fits maxBytes ((new name maxBytes policy).afterCalls source calls).store.entries ∧
      ∀ p, p <+: accessed source calls → Recency.Fits maxBytes p →
        p <+: ((new name maxBytes policy).afterCalls source calls).store.entries) ∧
    (∀ c, Hits (new name maxBytes policy) source calls c ↔
      ∃ before d after, calls = before ++ d :: after ∧ d.key = c.key ∧
        (∀ x ∈ after, x.key ≠ c.key) ∧ (c.entry? source).isSome ∧
        Recency.Fits maxBytes (accessed source (d :: after))) ∧
    ∀ c larger, larger = 0 ∨ maxBytes ≠ 0 ∧ maxBytes ≤ larger →
      Hits (new name maxBytes policy) source calls c →
      Hits (new name larger policy) source calls c := by
  refine ⟨?_, fun c => hits_iff name policy source maxBytes calls c, ?_⟩
  · have hentries := (holds_afterCalls name policy source maxBytes calls).2.entries_eq
    rw [hentries]
    exact Recency.kept_spec maxBytes (accessed source calls)
  · intro c larger hlarger hhits
    obtain ⟨before, d, after, hcalls, hkey, hafter, hsome, hfits⟩ :=
      (hits_iff name policy source maxBytes calls c).1 hhits
    exact (hits_iff name policy source larger calls c).2
      ⟨before, d, after, hcalls, hkey, hafter, hsome, hfits.mono hlarger⟩

/-- A source that fails for one key. -/
def oneByte : Source := fun key => if key = "?" then .error "unknown" else .ok [0]

/-- Calls through both ways in, one of which fails. -/
def mixedCalls : List Call :=
  [⟨.routed, "a"⟩, ⟨.routed, "bb"⟩, ⟨.routed, "?"⟩, ⟨.direct, "a"⟩]

/-- Four bytes are too few to keep a key through such calls; five keep it, and so do six. -/
theorem hits_of_history_mixed :
    ¬ Hits (new "g" 4 .skip) oneByte mixedCalls ⟨.direct, "bb"⟩ ∧
    Hits (new "g" 5 .skip) oneByte mixedCalls ⟨.direct, "bb"⟩ ∧
    Hits (new "g" 6 .skip) oneByte mixedCalls ⟨.direct, "bb"⟩ := by
  have hmiss : ¬ Hits (new "g" 4 .skip) oneByte mixedCalls ⟨.direct, "bb"⟩ := by
    unfold Hits
    decide +kernel
  have hhit : Hits (new "g" 5 .skip) oneByte mixedCalls ⟨.direct, "bb"⟩ := by
    unfold Hits
    decide +kernel
  exact ⟨hmiss, hhit, (hits_of_history "g" .skip oneByte 5 mixedCalls).2.2 _ 6 (by decide) hhit⟩

end Group

end PeerCache
