import Mathlib.Data.List.TakeWhile
import PeerCache.Proofs.Url.Segment
/-!
# PeerCache — one more segment

What `Path.push` does to the path of a web URL. A text that is a dot or two is left out. Of any
other text the dropped characters go first; if that leaves a dot or two, these do act on the path,
and the path is cut. In all remaining cases the path grows by the written form of the text.

That a written text is a dot only if the text is one follows from reading it back: `.` and `%2e`
read as the same byte, and `decode_written` says that this byte is the text.
-/

namespace PeerCache.Url

open Text

/-! ## Lower case -/

/-- Lower case is a matter of the letters from A to Z. -/
theorem toNat_toLower (c : Char) :
    c.toLower.toNat = if 65 ≤ c.toNat ∧ c.toNat ≤ 90 then c.toNat + 32 else c.toNat := by
  unfold Char.toLower
  split
  next h =>
    have hrange : 65 ≤ c.toNat ∧ c.toNat ≤ 90 := by
      simpa [UInt32.le_iff_toNat_le] using h
    rw [if_pos hrange]
    show (c.val + ('a'.val - 'A'.val)).toNat = c.val.toNat + 32
    have hle : c.val.toNat ≤ 90 := hrange.2
    simp [UInt32.toNat_add]
    omega
  next h =>
    rw [if_neg]
    simpa [UInt32.le_iff_toNat_le] using h

/-- Of what is no small letter, only the character itself goes over into it. -/
theorem eq_of_toLower_eq {c x : Char} (hx : ¬ (97 ≤ x.toNat ∧ x.toNat ≤ 122))
    (h : c.toLower = x) : c = x := by
  have hnat := toNat_toLower c
  rw [h] at hnat
  apply Char.ext
  apply UInt32.toNat_inj.1
  show c.toNat = x.toNat
  split at hnat
  · omega
  · omega

/-- Two characters become a small `e`. It is the one letter that the spelling of a dot has. -/
theorem eq_of_toLower_eq_e {c : Char} (h : c.toLower = 'e') : c = 'e' ∨ c = 'E' := by
  have hnat := toNat_toLower c
  rw [h] at hnat
  have hval : ('e' : Char).toNat = 101 := rfl
  rw [hval] at hnat
  split at hnat
  · right
    apply Char.ext
    apply UInt32.toNat_inj.1
    show c.toNat = 69
    omega
  · left
    apply Char.ext
    apply UInt32.toNat_inj.1
    show c.toNat = 101
    omega

/-! ## Dots -/

/-- A spelling of a dot reads as one, whatever follows. -/
theorem decode_dot {seg : List Char} (h : Path.isSingleDot seg = true) (rest : List UInt8) :
    Percent.decode (utf8 (String.ofList seg) ++ rest) = 0x2E :: Percent.decode rest := by
  have hmem : seg.map Char.toLower ∈ [['.'], ['%', '2', 'e']] := of_decide_eq_true h
  have hne : (0x2E : UInt8) ≠ Percent.sign := by decide
  rcases List.mem_cons.1 hmem with hdot | hmem
  · obtain ⟨a, as, rfl, ha, has⟩ := List.map_eq_cons_iff.1 hdot
    rw [List.map_eq_nil_iff] at has
    rw [has, eq_of_toLower_eq (by decide) ha]
    exact Percent.decode_cons_of_ne _ hne rest
  · have hesc := List.mem_singleton.1 hmem
    obtain ⟨a, as, rfl, ha, has⟩ := List.map_eq_cons_iff.1 hesc
    obtain ⟨b, bs, rfl, hb, hbs⟩ := List.map_eq_cons_iff.1 has
    obtain ⟨c, cs, rfl, hc, hcs⟩ := List.map_eq_cons_iff.1 hbs
    rw [List.map_eq_nil_iff] at hcs
    rw [hcs, eq_of_toLower_eq (by decide) ha, eq_of_toLower_eq (by decide) hb]
    rcases eq_of_toLower_eq_e hc with rfl | rfl
    · rfl
    · rfl

/-- A segment that reads as two dots is made of two that read as one. -/
theorem isDoubleDot_split {seg : List Char} (h : Path.isDoubleDot seg = true) :
    ∃ a b, seg = a ++ b ∧ Path.isSingleDot a = true ∧ Path.isSingleDot b = true := by
  have hmem : seg.map Char.toLower ∈
      [['.', '.'], ['.', '%', '2', 'e'], ['%', '2', 'e', '.'], ['%', '2', 'e', '%', '2', 'e']] :=
    of_decide_eq_true h
  have hsplit : ∀ xs ys : List Char, xs ∈ [['.'], ['%', '2', 'e']] →
      ys ∈ [['.'], ['%', '2', 'e']] → seg.map Char.toLower = xs ++ ys →
      ∃ a b, seg = a ++ b ∧ Path.isSingleDot a = true ∧ Path.isSingleDot b = true := by
    intro xs ys hxs hys heq
    obtain ⟨a, b, rfl, rfl, rfl⟩ := List.map_eq_append_iff.1 heq
    exact ⟨a, b, rfl, decide_eq_true hxs, decide_eq_true hys⟩
  simp only [List.mem_cons, List.not_mem_nil, or_false] at hmem
  rcases hmem with heq | heq | heq | heq
  · exact hsplit ['.'] ['.'] (by decide) (by decide) heq
  · exact hsplit ['.'] ['%', '2', 'e'] (by decide) (by decide) heq
  · exact hsplit ['%', '2', 'e'] ['.'] (by decide) (by decide) heq
  · exact hsplit ['%', '2', 'e'] ['%', '2', 'e'] (by decide) (by decide) heq

/-- What is written and reads as one dot was one: the sign that spells a dot otherwise is written
encoded. -/
theorem eq_dot_of_written {cs : List Char} (h : Path.isSingleDot (written cs) = true) :
    cs = ['.'] := by
  have hdecode := decode_written cs
  have hdot := decode_dot h []
  rw [List.append_nil, hdecode] at hdot
  exact utf8_ofList_injective (hdot.trans (by decide))

/-- What is written and reads as two dots was two. -/
theorem eq_dots_of_written {cs : List Char} (h : Path.isDoubleDot (written cs) = true) :
    cs = ['.', '.'] := by
  obtain ⟨a, b, hab, ha, hb⟩ := isDoubleDot_split h
  have hdecode := decode_written cs
  have hbdot := decode_dot hb []
  rw [List.append_nil] at hbdot
  rw [hab, utf8_ofList_append, decode_dot ha, hbdot] at hdecode
  exact utf8_ofList_injective (hdecode.symm.trans (by decide))

/-! ## Cuts -/

/-- A path up to its last slash is the front of it. -/
theorem upToLastSlash_isPrefix (path : List Char) : Path.upToLastSlash path <+: path := by
  unfold Path.upToLastSlash
  have hsuffix := List.dropWhile_suffix (fun c => decide (c ≠ '/')) (l := path.reverse)
  have hstart := List.reverse_prefix.2 hsuffix
  rwa [List.reverse_reverse] at hstart

/-- A path that is cut ends in a slash. -/
theorem upToLastSlash_ends {path : List Char} (h : '/' ∈ path) :
    (Path.upToLastSlash path).getLast? = some '/' := by
  unfold Path.upToLastSlash
  rw [List.getLast?_reverse]
  cases hdrop : path.reverse.dropWhile (fun c => decide (c ≠ '/')) with
  | nil =>
    have hno := List.dropWhile_eq_nil_iff.1 hdrop '/' (List.mem_reverse.2 h)
    simp at hno
  | cons c cs =>
    have hhead := List.head?_dropWhile_not (fun c => decide (c ≠ '/')) path.reverse
    rw [hdrop] at hhead
    have hc : c = '/' := by simpa using hhead
    rw [hc]
    rfl

/-- A path with the slash that comes in front of its next segment. -/
def opened (path : List Char) : List Char := if path = ['/'] then path else path ++ ['/']

/-- A path that is open for a segment ends in a slash. -/
theorem opened_ends (path : List Char) : (opened path).getLast? = some '/' := by
  unfold opened
  split
  next h =>
    rw [h]
    rfl
  next => rw [List.getLast?_concat]

/-- What a segment that is appended without a slash behind it does to a path of a web URL. -/
theorem append_cases (path seg : List Char) (hpath : path.getLast? = some '/') :
    (Path.isDoubleDot seg = true ∧ ∃ r, Path.append .web path seg false = r ∧ r <+: path ∧
      r.getLast? = some '/') ∨
    (Path.isSingleDot seg = true ∧ Path.append .web path seg false = path) ∨
    (Path.isDoubleDot seg = false ∧ Path.isSingleDot seg = false ∧
      Path.append .web path seg false = path ++ seg) := by
  unfold Path.append
  cases hdouble : Path.isDoubleDot seg with
  | true =>
    left
    refine ⟨rfl, _, rfl, ?_⟩
    -- Two dots go up: with a web scheme the last segment is dropped whatever it is, and a slash
    -- stays at the end.
    have hshorten : ∀ front, Path.shorten .web front = Path.upToLastSlash front := fun _ => rfl
    simp only [if_true, Bool.false_and, Bool.false_eq_true, if_false, hshorten]
    have hmem : '/' ∈ path := List.mem_of_getLast? hpath
    split
    next hdrop =>
      have hfront : '/' ∈ path.dropLast := by
        unfold Path.canDropSlash at hdrop
        simp only [Bool.and_eq_true, decide_eq_true_eq] at hdrop
        exact hdrop.2.1
      exact ⟨(upToLastSlash_isPrefix _).trans (List.dropLast_prefix path),
        upToLastSlash_ends hfront⟩
    next => exact ⟨upToLastSlash_isPrefix path, upToLastSlash_ends hmem⟩
  | false =>
    cases hsingle : Path.isSingleDot seg with
    | true =>
      right; left
      simp [hpath]
    | false =>
      right; right
      simp

/-- What one more segment does to a path of a web URL. -/
theorem push_cases (path text : List Char) :
    ((text = ['.'] ∨ text = ['.', '.']) ∧ Path.push .web path text = path) ∨
    (text ≠ ['.'] ∧ text ≠ ['.', '.'] ∧ (kept text = ['.'] ∨ kept text = ['.', '.']) ∧
      ∃ r, Path.push .web path text = r ∧ r <+: opened path ∧ r.getLast? = some '/') ∨
    (Path.push .web path text = opened path ++ written (kept text)) := by
  by_cases hdots : text = ['.'] ∨ text = ['.', '.']
  · left
    refine ⟨hdots, ?_⟩
    unfold Path.push
    rw [if_pos]
    simpa using hdots
  · right
    have hone : text ≠ ['.'] := fun h => hdots (Or.inl h)
    have htwo : text ≠ ['.', '.'] := fun h => hdots (Or.inr h)
    have hpush : Path.push .web path text
        = Path.append .web (opened path) (written (kept text)) false := by
      unfold Path.push
      rw [if_neg (by simpa using hdots)]
      rfl
    rw [hpush]
    -- What is written can be dots again, if dropped characters stood between or around them.
    rcases append_cases (opened path) (written (kept text)) (opened_ends path) with
      ⟨hdouble, r, hr, hcut⟩ | ⟨hsingle, hsame⟩ | ⟨-, -, happend⟩
    · exact Or.inl ⟨hone, htwo, Or.inr (eq_dots_of_written hdouble), r, hr, hcut⟩
    · exact Or.inl ⟨hone, htwo, Or.inl (eq_dot_of_written hsingle), _, hsame, List.prefix_refl _,
        opened_ends path⟩
    · exact Or.inr happend

/-- A path keeps free of a character that no written text has. -/
theorem not_mem_push {x : Char} (hx : x ≠ '/') (hwritten : ∀ cs, x ∉ written cs)
    {path : List Char} (hpath : x ∉ path) (text : List Char) : x ∉ Path.push .web path text := by
  have hopened : x ∉ opened path := by
    unfold opened
    split
    next => exact hpath
    next =>
      intro hmem
      rcases List.mem_append.1 hmem with hmem | hmem
      · exact hpath hmem
      · exact hx (List.mem_singleton.1 hmem)
  rcases push_cases path text with ⟨-, h⟩ | ⟨-, -, -, r, rfl, hstart, -⟩ | h
  · rw [h]
    exact hpath
  · exact fun hmem => hopened (hstart.subset hmem)
  · rw [h]
    intro hmem
    rcases List.mem_append.1 hmem with hmem | hmem
    · exact hopened hmem
    · exact hwritten _ hmem

/-- A path goes on to start with a slash. -/
theorem head_push {path : List Char} (hpath : path.head? = some '/') (text : List Char) :
    (Path.push .web path text).head? = some '/' := by
  obtain ⟨tail, rfl⟩ := List.head?_eq_some_iff.1 hpath
  have hopened : ∃ rest, opened ('/' :: tail) = '/' :: rest := by
    unfold opened
    split
    next => exact ⟨tail, rfl⟩
    next => exact ⟨tail ++ ['/'], rfl⟩
  obtain ⟨rest, hopened⟩ := hopened
  rcases push_cases ('/' :: tail) text with ⟨-, h⟩ | ⟨-, -, -, r, h, hstart, hends⟩ | h
  · rw [h]
    rfl
  · rw [hopened] at hstart
    rw [h]
    cases r with
    | nil => cases hends
    | cons c cs =>
      obtain ⟨more, heq⟩ := hstart
      cases heq
      rfl
  · rw [h, hopened]
    rfl

end PeerCache.Url
