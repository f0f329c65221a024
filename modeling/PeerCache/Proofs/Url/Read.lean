import Mathlib.Data.List.Basic
import PeerCache.Proofs.Url.Push
import PeerCache.Url.Parser
/-!
# PeerCache — the path of a URL that is read

What reading makes of the path of a web URL: it starts with a slash and has no character that the
set of paths writes encoded (`head_read`, `not_mem_read`). A path is read as it is written if each
of its segments is clean (**`read_eq_self`**); the induction is on the segments.
-/

namespace PeerCache.Url

/-! ## One segment -/

/-- A segment more leaves the slash in front, and brings in its own characters and slashes only. -/
theorem append_head_mem {path : List Char} (hpath : path.head? = some '/') (seg : List Char)
    (slash : Bool) :
    (Path.append .web path seg slash).head? = some '/' ∧
      ∀ c ∈ Path.append .web path seg slash, c ∈ path ∨ c ∈ seg ∨ c = '/' := by
  obtain ⟨tail, rfl⟩ := List.head?_eq_some_iff.1 hpath
  unfold Path.append
  cases hdouble : Path.isDoubleDot seg with
  | true =>
    -- what is cut of a path is a front part of it, and may get a slash again
    have hcut : ∀ front, front <+: '/' :: tail → '/' ∈ front →
        ∃ more, Path.upToLastSlash front = '/' :: more ∧
          Path.upToLastSlash front ⊆ '/' :: tail := by
      intro front hfront hslash
      have hstart := (upToLastSlash_isPrefix front).trans hfront
      have hends := upToLastSlash_ends hslash
      cases hp : Path.upToLastSlash front with
      | nil =>
        rw [hp] at hends
        cases hends
      | cons c more =>
        rw [hp] at hstart
        obtain ⟨rest, heq⟩ := hstart
        cases heq
        exact ⟨more, rfl, (List.prefix_append _ _).subset⟩
    have hshorten : ∀ front, Path.shorten .web front = Path.upToLastSlash front := fun _ => rfl
    simp only [if_true, hshorten]
    obtain ⟨more, hp, hsub⟩ : ∃ more, Path.upToLastSlash
        (if ('/' :: tail).getLast? = some '/' && Path.canDropSlash ('/' :: tail) then
          ('/' :: tail).dropLast else '/' :: tail) = '/' :: more ∧
        '/' :: more ⊆ '/' :: tail := by
      split
      next hdrop =>
        have hfront : '/' ∈ ('/' :: tail).dropLast := by
          unfold Path.canDropSlash at hdrop
          simp only [Bool.and_eq_true, decide_eq_true_eq] at hdrop
          exact hdrop.2.1
        obtain ⟨more, hp, hsub⟩ := hcut _ (List.dropLast_prefix _) hfront
        exact ⟨more, hp, hp ▸ hsub⟩
      next =>
        obtain ⟨more, hp, hsub⟩ := hcut _ (List.prefix_refl _) List.mem_cons_self
        exact ⟨more, hp, hp ▸ hsub⟩
    rw [hp]
    split
    next =>
      refine ⟨rfl, fun c hc => ?_⟩
      rcases List.mem_append.1 hc with hc | hc
      · exact Or.inl (hsub hc)
      · exact Or.inr (Or.inr (List.mem_singleton.1 hc))
    next => exact ⟨rfl, fun c hc => Or.inl (hsub hc)⟩
  | false =>
    simp only [Bool.false_eq_true, if_false]
    split
    next =>
      split
      next => exact ⟨rfl, fun c hc => Or.inl hc⟩
      next =>
        refine ⟨rfl, fun c hc => ?_⟩
        rcases List.mem_append.1 hc with hc | hc
        · exact Or.inl hc
        · exact Or.inr (Or.inr (List.mem_singleton.1 hc))
    next =>
      refine ⟨rfl, fun c hc => ?_⟩
      rcases List.mem_append.1 hc with hc | hc
      · rcases List.mem_append.1 hc with hc | hc
        · exact Or.inl hc
        · exact Or.inr (Or.inl hc)
      · cases slash with
        | true => exact Or.inr (Or.inr (List.mem_singleton.1 hc))
        | false => cases hc

/-! ## Whole paths -/

theorem head_appendAll {path : List Char} (hpath : path.head? = some '/')
    (segs : List (List Char)) : (Path.appendAll .web path segs).head? = some '/' := by
  induction segs generalizing path with
  | nil => exact hpath
  | cons seg rest ih =>
    cases rest with
    | nil => exact (append_head_mem hpath _ false).1
    | cons next rest => exact ih (append_head_mem hpath _ true).1

/-- A character that a path does not have yet, and that is written encoded, does not come in by its
segments. -/
theorem not_mem_appendAll {x : Char} (hx : x ≠ '/') (hset : EncodeSet.path x = true)
    (hescape : ∀ c, x ∉ escape c) {path : List Char} (hpath : path.head? = some '/')
    (hfree : x ∉ path) (segs : List (List Char)) : x ∉ Path.appendAll .web path segs := by
  have hone : ∀ {path : List Char}, path.head? = some '/' → x ∉ path → ∀ seg slash,
      x ∉ Path.append .web path (Path.spell .web EncodeSet.path path seg) slash := by
    intro path hpath hfree seg slash hmem
    rcases (append_head_mem hpath _ slash).2 x hmem with hmem | hmem | hmem
    · exact hfree hmem
    · exact not_mem_encode hset hescape (kept seg) hmem
    · exact hx hmem
  induction segs generalizing path with
  | nil => exact hfree
  | cons seg rest ih =>
    cases rest with
    | nil => exact hone hpath hfree seg false
    | cons next rest => exact ih (append_head_mem hpath _ true).1 (hone hpath hfree seg true)

/-- A path that is read from one slash on starts with it. -/
theorem head_read (cs : List Char) : (Path.read .web ['/'] cs).head? = some '/' :=
  head_appendAll rfl _

/-- A character that is written encoded is in no path that was read. -/
theorem not_mem_read {x : Char} (hx : x ≠ '/') (hset : EncodeSet.path x = true)
    (hescape : ∀ c, x ∉ escape c) (cs : List Char) : x ∉ Path.read .web ['/'] cs :=
  not_mem_appendAll hx hset hescape rfl (by simpa using hx) _

/-- What a web URL that is read has: an authority, and a path that was read from its root. -/
theorem parse_web {s : String} {u : Url} (h : parse s = .ok u) (hkind : u.kind = .web) :
    (∃ a, u.authority = some a) ∧ ∃ cs, u.path = Path.read .web ['/'] cs := by
  unfold parse at h
  cases hscheme : readScheme? (trimmed s) with
  | none =>
    rw [hscheme] at h
    cases h
  | some parts =>
    obtain ⟨scheme, rest⟩ := parts
    rw [hscheme] at h
    dsimp only at h
    -- Where the tail was cut does not matter, nor below where the authority ends.
    generalize cutAt (fun c => c = '?' || c = '#') rest = cut at h
    obtain ⟨main, tail⟩ := cut
    dsimp only at h
    cases hweb : SchemeKind.of scheme with
    | web =>
      rw [hweb] at h
      dsimp only at h
      unfold readWeb at h
      dsimp only at h
      generalize cutAt (Path.isSlash .web) _ = cut at h
      obtain ⟨authority, path⟩ := cut
      dsimp only at h
      cases hread : readAuthority scheme authority _ with
      | error e =>
        rw [hread] at h
        cases h
      | ok r =>
        rw [hread] at h
        cases h
        exact ⟨⟨r.1, rfl⟩, path.drop 1, rfl⟩
    | file =>
      rw [hweb] at h
      cases hfile : readFile main with
      | error e =>
        rw [hfile] at h
        cases h
      | ok r =>
        rw [hfile] at h
        cases h
        exact absurd (hweb.symm.trans hkind) (by decide)
    | other =>
      rw [hweb] at h
      cases hother : readOther scheme (kept main) (tail ≠ []) with
      | error e =>
        rw [hother] at h
        cases h
      | ok r =>
        rw [hother] at h
        cases h
        exact absurd (hweb.symm.trans hkind) (by decide)

/-! ## Clean segments -/

/-- A segment that is read as it is written: none of its characters is encoded or dropped, and it is
neither a dot nor two. -/
structure IsClean (seg : List Char) : Prop where
  chars : ∀ c ∈ seg, EncodeSet.path c = false
  single : Path.isSingleDot seg = false
  double : Path.isDoubleDot seg = false

/-- A segment has no characters but those of the text that it was split from. -/
theorem subset_of_mem_splitOn {c : Char} {cs seg : List Char} (h : seg ∈ cs.splitOn c) :
    seg ⊆ cs := by
  unfold List.splitOn at h
  -- By the first character: it opens a segment of its own or joins the first.
  induction cs generalizing seg with
  | nil =>
    rw [List.splitOnP_nil, List.mem_singleton] at h
    rw [h]
    exact List.Subset.refl _
  | cons x cs ih =>
    rw [List.splitOnP_cons_eq_if_modifyHead] at h
    split at h
    next =>
      rcases List.mem_cons.1 h with rfl | h
      · exact List.nil_subset _
      · exact List.Subset.trans (ih h) (List.subset_cons_self x cs)
    next =>
      cases hsplit : cs.splitOnP (· == c) with
      | nil =>
        rw [hsplit] at h
        cases h
      | cons first rest =>
        rw [hsplit] at h ih
        rcases List.mem_cons.1 h with rfl | h
        · exact List.cons_subset_cons x (ih List.mem_cons_self)
        · exact List.Subset.trans (ih (List.mem_cons_of_mem first h)) (List.subset_cons_self x cs)

/-- A clean segment is appended as it stands. -/
theorem append_of_isClean {path seg : List Char} (h : IsClean seg) (slash : Bool) :
    Path.append .web path (Path.spell .web EncodeSet.path path seg) slash =
      path ++ seg ++ if slash then ['/'] else [] := by
  have hkept : kept seg = seg := by
    unfold kept
    rw [List.filter_eq_self]
    intro c hc
    have hset := h.chars c hc
    rw [Bool.not_eq_true']
    -- the dropped characters are controls
    cases hdrop : isDropped c with
    | false => rfl
    | true =>
      unfold isDropped at hdrop
      simp only [Bool.or_eq_true, decide_eq_true_eq] at hdrop
      rcases hdrop with (rfl | rfl) | rfl
      · exact absurd hset (by decide)
      · exact absurd hset (by decide)
      · exact absurd hset (by decide)
  have hencode : encode EncodeSet.path seg = seg := by
    unfold encode
    have hone : ∀ c ∈ seg, (if EncodeSet.path c then escape c else [c]) = [c] := by
      intro c hc
      rw [h.chars c hc]
      rfl
    rw [List.flatMap_congr hone]
    exact List.flatMap_singleton' seg
  have hspell : Path.spell .web EncodeSet.path path seg = seg := by
    unfold Path.spell
    rw [hkept, hencode]
    rfl
  rw [hspell]
  unfold Path.append
  simp only [h.single, h.double, Bool.false_eq_true, if_false]

/-- Without a backslash, a web path is split at its slashes only. -/
theorem splitOnP_isSlash {cs : List Char} (hback : '\\' ∉ cs) :
    cs.splitOnP (Path.isSlash .web) = cs.splitOn '/' := by
  unfold List.splitOn
  induction cs with
  | nil => rfl
  | cons c cs ih =>
    have hc : Path.isSlash .web c = (c == '/') := by
      have hne : c ≠ '\\' := fun h => hback (h ▸ List.mem_cons_self)
      rw [Bool.eq_iff_iff]
      simp [Path.isSlash, hne]
    rw [List.splitOnP_cons_eq_if_modifyHead, List.splitOnP_cons_eq_if_modifyHead, hc,
      ih fun h => hback (List.mem_cons_of_mem _ h)]

/-- Clean segments are appended as they stand, with a slash between any two. -/
theorem appendAll_of_isClean {path : List Char} {segs : List (List Char)} (hne : segs ≠ [])
    (h : ∀ seg ∈ segs, IsClean seg) :
    Path.appendAll .web path segs = path ++ ['/'].intercalate segs := by
  induction segs generalizing path with
  | nil => exact absurd rfl hne
  | cons seg rest ih =>
    have hseg := h seg List.mem_cons_self
    cases rest with
    | nil =>
      show Path.append .web path (Path.spell .web EncodeSet.path path seg) false = _
      rw [append_of_isClean hseg]
      simp [List.intercalate]
    | cons next rest =>
      show Path.appendAll .web (Path.append .web path _ true) (next :: rest) = _
      rw [append_of_isClean hseg, ih (List.cons_ne_nil _ _)
        fun seg hmem => h seg (List.mem_cons_of_mem _ hmem)]
      simp [List.intercalate, List.append_assoc]

/-- A text of clean segments that has no backslash is read as it is written. -/
theorem read_eq_self {cs : List Char} (hback : '\\' ∉ cs)
    (h : ∀ seg ∈ cs.splitOn '/', IsClean seg) : Path.read .web ['/'] cs = '/' :: cs := by
  show Path.appendAll .web ['/'] (cs.splitOnP (Path.isSlash .web)) = '/' :: cs
  rw [splitOnP_isSlash hback, appendAll_of_isClean (List.splitOn_ne_nil _ _) h,
    List.intercalate_splitOn]
  rfl

end PeerCache.Url
