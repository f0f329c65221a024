/-!
# PeerCache — what is told of a run

A system that takes one event after another is a function `step`. What is worth telling of an event
is told on the state before it, as a list of lines; `told` has the lines of a whole run in order.
What one step does to the lines and to a view of the state, a run does too:

* **`nodup_told`** — no line is told twice if a line, once told, stands for good.
* **`perm_told`** — if each step makes the lines that come and the view before it out of the lines
  that go and the view after it, so does a run.
-/

namespace PeerCache

section Told

variable {σ ε β : Type} {step : σ → ε → σ}

/-- The lines that a run tells, event by event. -/
def told (step : σ → ε → σ) (line : σ → ε → List β) (s : σ) : List ε → List β
  | [] => []
  | e :: es => line s e ++ told step line (step s e) es

/-- A run tells what its first part tells, and then what its second part tells. -/
theorem told_append (line : σ → ε → List β) (s : σ) (before after : List ε) :
    told step line s (before ++ after) =
      told step line s before ++ told step line (before.foldl step s) after := by
  induction before generalizing s with
  | nil => rfl
  | cons e es ih =>
    show line s e ++ told step line (step s e) (es ++ after) = _
    rw [ih (step s e), ← List.append_assoc]
    rfl

/-- What is told in other words of each event is told in other words altogether. -/
theorem map_told {γ : Type} (line : σ → ε → List β) (f : β → γ) (s : σ) (events : List ε) :
    told step (fun s e => (line s e).map f) s events = (told step line s events).map f := by
  induction events generalizing s with
  | nil => rfl
  | cons e es ih =>
    show (line s e).map f ++ told step _ (step s e) es =
      (line s e ++ told step line (step s e) es).map f
    rw [ih (step s e), List.map_append]

/-- A line of a run is told of one of its events. -/
theorem exists_of_mem_told {line : σ → ε → List β} {s : σ} {events : List ε} {b : β}
    (h : b ∈ told step line s events) :
    ∃ before e after, events = before ++ e :: after ∧ b ∈ line (before.foldl step s) e := by
  induction events generalizing s with
  | nil => cases h
  | cons e es ih =>
    rcases List.mem_append.1 h with h | h
    · exact ⟨[], e, es, rfl, h⟩
    · obtain ⟨before, e', after, rfl, hb⟩ := ih h
      exact ⟨e :: before, e', after, rfl, hb⟩

/-- No line is told twice if a line, once told, stands for good, and none is told that stands
already. Steps need be looked at only where `Inv` holds, which they keep. -/
theorem nodup_told {line : σ → ε → List β} (Inv : σ → Prop) (Stands : σ → β → Prop)
    (hinv : ∀ s e, Inv s → Inv (step s e)) (hone : ∀ s e, (line s e).Nodup)
    (htells : ∀ s e b, Inv s → b ∈ line s e → ¬ Stands s b ∧ Stands (step s e) b)
    (hkeeps : ∀ s e b, Inv s → Stands s b → Stands (step s e) b) {s : σ} (h : Inv s)
    (events : List ε) :
    (told step line s events).Nodup ∧ ∀ b ∈ told step line s events, ¬ Stands s b := by
  induction events generalizing s with
  | nil => exact ⟨List.nodup_nil, fun b hb => by cases hb⟩
  | cons e es ih =>
    obtain ⟨hnodup, hfresh⟩ := ih (hinv s e h)
    constructor
    · refine List.nodup_append.2 ⟨hone s e, hnodup, ?_⟩
      rintro b hb _ hb' rfl
      exact hfresh b hb' (htells s e b h hb).2
    · intro b hb hstands
      rcases List.mem_append.1 hb with hb | hb
      · exact (htells s e b h hb).1 hstands
      · exact hfresh b hb (hkeeps s e b h hstands)

/-- What comes and what is there before is what goes and what is there afterwards: a run keeps such
a balance if each step does. -/
theorem perm_told (come gone : σ → ε → List β) (view : σ → List β) (Inv : σ → Prop)
    (hinv : ∀ s e, Inv s → Inv (step s e))
    (hstep : ∀ s e, Inv s → (come s e ++ view s).Perm (gone s e ++ view (step s e))) {s : σ}
    (h : Inv s) (events : List ε) :
    (told step come s events ++ view s).Perm
      (told step gone s events ++ view (events.foldl step s)) := by
  induction events generalizing s with
  | nil => exact List.Perm.refl _
  | cons e es ih =>
    show ((come s e ++ told step come (step s e) es) ++ view s).Perm
      ((gone s e ++ told step gone (step s e) es) ++ view (es.foldl step (step s e)))
    rw [List.append_assoc, List.append_assoc]
    refine (List.perm_append_comm_assoc (come s e) _ _).trans ?_
    refine ((hstep s e h).append_left _).trans ?_
    refine (List.perm_append_comm_assoc _ (gone s e) _).trans ?_
    exact (ih (hinv s e h)).append_left _

end Told

end PeerCache
