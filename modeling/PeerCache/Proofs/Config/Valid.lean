import Mathlib.Data.List.DropRight
import PeerCache.Config.Settings
/-!
# PeerCache — settings that are accepted

`Valid` says what `validate` checks, and **`validate_eq_ok_iff`** that it checks just this. The
addresses of settings are *tidy*: a pool that leaves out the slashes at their ends leaves them as
they are (**`trimSlashes_selfAddr`**, **`trimSlashes_peerAddrs`**).
-/

namespace PeerCache

/-! ## Checks in a row -/

/-- Two computations in a row go through exactly if both do. -/
theorem bind_eq_ok {ε α β : Type} {x : Except ε α} {f : α → Except ε β} {b : β} :
    (x >>= f) = .ok b ↔ ∃ a, x = .ok a ∧ f a = .ok b := by
  cases x with
  | error e =>
    constructor
    · rintro ⟨⟩
    · rintro ⟨a, ⟨⟩, -⟩
  | ok a =>
    constructor
    · exact fun h => ⟨a, rfl, h⟩
    · rintro ⟨a', ⟨⟩, h⟩
      exact h

/-- A check that fails fails what follows it too. -/
theorem check_eq_ok {ε β : Type} {p : Prop} [Decidable p] {e : ε} {f : PUnit → Except ε β} {b : β} :
    (if p then throw e >>= f else f PUnit.unit) = .ok b ↔ ¬ p ∧ f PUnit.unit = .ok b := by
  by_cases hp : p
  · rw [if_pos hp]
    constructor
    · rintro ⟨⟩
    · exact fun h => absurd hp h.1
  · rw [if_neg hp]
    exact ⟨fun h => ⟨hp, h⟩, fun h => h.2⟩

/-- A check of each element goes through exactly if every check does. -/
theorem forM_eq_ok {ε α : Type} {xs : List α} {f : α → Except ε Unit} {u : Unit} :
    xs.forM f = .ok u ↔ ∀ x ∈ xs, f x = .ok () := by
  induction xs with
  | nil => exact ⟨fun _ x hx => absurd hx List.not_mem_nil, fun _ => rfl⟩
  | cons x xs ih =>
    show (f x >>= fun _ => xs.forM f) = _ ↔ _
    rw [bind_eq_ok, List.forall_mem_cons, ih]
    constructor
    · rintro ⟨⟨⟩, hx, hxs⟩
      exact ⟨hx, hxs⟩
    · rintro ⟨hx, hxs⟩
      exact ⟨(), hx, hxs⟩

/-! ## Tidy addresses -/

/-- Trimming again takes nothing more off. -/
theorem Text.trimSlashes_trimSlashes (s : String) :
    trimSlashes (trimSlashes s) = trimSlashes s := by
  unfold trimSlashes
  rw [String.toList_ofList]
  exact congrArg String.ofList (List.rdropWhile_idempotent (· == '/') s.toList)

namespace Settings

/-- The node's own address has no slashes left at its end. -/
theorem trimSlashes_selfAddr (s : Settings) : Text.trimSlashes s.selfAddr = s.selfAddr :=
  Text.trimSlashes_trimSlashes _

/-- The addresses of the peers have no slashes left at their ends. -/
theorem trimSlashes_peerAddrs (s : Settings) :
    s.peerAddrs.map Text.trimSlashes = s.peerAddrs := by
  refine List.map_congr_left (g := id) (fun a ha => ?_) |>.trans (List.map_id _)
  obtain ⟨raw, -, rfl⟩ := List.mem_map.1 (List.mem_filter.1 ha).1
  exact Text.trimSlashes_trimSlashes _

/-! ## What is checked -/

/-- What settings have to be for a cluster to work with them. -/
structure Valid (s : Settings) : Prop where
  group : s.group ≠ ""
  replicas : s.replicas ≠ 0
  basePath : Peer.isValidBasePath s.basePath = true
  peers : s.peerAddrs ≠ []
  urls : ∀ a ∈ s.peerAddrs, ∃ u, parseHttpUrl a = .ok u
  selfUrl : ∃ u, parseHttpUrl s.selfAddr = .ok u
  member : s.selfAddr ∈ s.peerAddrs

/-- Settings are accepted exactly if they are valid. -/
theorem validate_eq_ok_iff {s : Settings} : s.validate = .ok () ↔ s.Valid := by
  unfold validate
  simp only [check_eq_ok, bind_eq_ok, forM_eq_ok]
  constructor
  · rintro ⟨hgroup, hreplicas, hbase, hpeers, -, hurls, u, hself, hmember⟩
    refine ⟨hgroup, hreplicas, ?_, hpeers, fun a ha => ?_, ⟨u, hself⟩, ?_⟩
    · simpa using hbase
    · obtain ⟨u, hu, -⟩ := hurls a ha
      exact ⟨u, hu⟩
    · by_contra hnot
      rw [if_pos hnot] at hmember
      cases hmember
  · intro h
    obtain ⟨u, hself⟩ := h.selfUrl
    refine ⟨h.group, h.replicas, ?_, h.peers, (), fun a ha => ?_, u, hself, ?_⟩
    · simpa using h.basePath
    · obtain ⟨u, hu⟩ := h.urls a ha
      exact ⟨u, hu, rfl⟩
    · rw [if_neg (not_not.2 h.member)]
      rfl

end Settings

end PeerCache
