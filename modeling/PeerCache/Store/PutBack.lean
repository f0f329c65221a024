import PeerCache.Store.Hook
/-!
# PeerCache — hooks that put back less

A hook that adds to its own store may evict by it, and is then called again. `AddsLess` are the
hooks that make this come to an end: told of a value, such a hook may look at the store and take
notes, and it may add once, under whatever key, a value of fewer bytes. So it adds nothing when the
value is empty.
-/

namespace PeerCache

namespace Reaction

/-- The body looks at the store and takes notes; it adds nothing. -/
inductive Looks : Reaction → Prop
  | done : Looks .done
  | note {n : Note} {next : Reaction} (hnext : Looks next) : Looks (.note n next)
  | get {key : String} {next : Option ByteView → Reaction} (hnext : ∀ v, Looks (next v)) :
    Looks (.get key next)
  | stats {next : Store.Stats → Reaction} (hnext : ∀ s, Looks (next s)) : Looks (.stats next)

/-- The body adds at most one value, of fewer than `n` bytes. -/
inductive AddsLess (n : Nat) : Reaction → Prop
  | looks {r : Reaction} (hlooks : Looks r) : AddsLess n r
  | note {m : Note} {next : Reaction} (hnext : AddsLess n next) : AddsLess n (.note m next)
  | get {key : String} {next : Option ByteView → Reaction} (hnext : ∀ v, AddsLess n (next v)) :
    AddsLess n (.get key next)
  | stats {next : Store.Stats → Reaction} (hnext : ∀ s, AddsLess n (next s)) :
    AddsLess n (.stats next)
  | add {key : String} {value : ByteView} {next : Reaction} (hless : value.length < n)
    (hnext : Looks next) : AddsLess n (.add key value next)

end Reaction

namespace Hook

/-- Told of a value, the hook adds at most one, of fewer bytes. -/
def AddsLess (hook : Hook) : Prop := ∀ key value, (hook key value).AddsLess value.length

/-- The hook that puts back the first half of each value adds less than it was told of. -/
theorem addsLess_halve : halve.AddsLess := by
  intro key value
  refine .note ?_
  split
  next => exact .looks .done
  next hne =>
    have hpos : 0 < value.length := List.length_pos_iff.2 fun hnil => hne (List.isEmpty_iff.2 hnil)
    refine .add ?_ .done
    show (value.bytes.take (value.length / 2)).length < value.length
    rw [List.length_take]
    omega

/-- Puts every entry back as it was. -/
def putBack : Hook := fun key value => .add key value .done

end Hook

end PeerCache
