import Mathlib.Data.List.DropRight
import Mathlib.Data.List.TakeWhile
import PeerCache.Proofs.Url.Push
import PeerCache.Url.Parser
/-!
# PeerCache — the scheme of a text

What stands in front of the first colon of a text is read as its scheme, whatever follows
(**`readScheme?_text`**). Case does not count there, so a text reads as it does with its scheme in
lower case (**`parse_lower`**).
-/

namespace PeerCache

namespace Url

/-! ## Cutting -/

/-- Where the front of a list has no place to cut it, the rest is cut. -/
theorem cutAt_append_left {α : Type} {p : α → Bool} {as : List α} (has : ∀ a ∈ as, p a = false)
    (bs : List α) : cutAt p (as ++ bs) = (as ++ (cutAt p bs).1, (cutAt p bs).2) := by
  have hall : ∀ a ∈ as, (!p a) = true := by
    intro a ha
    rw [has a ha]
    rfl
  unfold cutAt
  rw [List.takeWhile_append_of_pos hall, List.dropWhile_append_of_pos hall]

/-- A text is cut at the first character that matches. -/
theorem cutAt_append {α : Type} {p : α → Bool} {as bs : List α} {x : α}
    (has : ∀ a ∈ as, p a = false) (hx : p x = true) :
    cutAt p (as ++ x :: bs) = (as, x :: bs) := by
  have hhere : cutAt p (x :: bs) = ([], x :: bs) := by
    unfold cutAt
    rw [List.takeWhile_cons_of_neg (by simp [hx]), List.dropWhile_cons_of_neg (by simp [hx])]
  rw [cutAt_append_left has, hhere, List.append_nil]

theorem cutAt_of_not_mem {α : Type} {p : α → Bool} {as : List α} (has : ∀ a ∈ as, p a = false) :
    cutAt p as = (as, []) := by
  have h := cutAt_append_left has []
  rwa [List.append_nil, show cutAt p [] = ([], []) from rfl, List.append_nil] at h

/-- A cut loses nothing. -/
theorem cutAt_fst_append_snd {α : Type} (p : α → Bool) (as : List α) :
    (cutAt p as).1 ++ (cutAt p as).2 = as :=
  List.takeWhile_append_dropWhile

/-! ## Letters -/

/-- The letters are the two ranges of ASCII. -/
theorem isAlpha_iff {c : Char} :
    c.isAlpha = true ↔ (65 ≤ c.toNat ∧ c.toNat ≤ 90) ∨ (97 ≤ c.toNat ∧ c.toNat ≤ 122) := by
  unfold Char.isAlpha Char.isUpper Char.isLower
  rw [Bool.or_eq_true, Bool.and_eq_true, decide_eq_true_iff, decide_eq_true_iff, decide_eq_true_iff]
  exact Iff.rfl

theorem isAlpha_toLower (c : Char) : c.toLower.isAlpha = c.isAlpha := by
  rw [Bool.eq_iff_iff, isAlpha_iff, isAlpha_iff, toNat_toLower]
  split
  next h => omega
  next h => exact Iff.rfl

theorem toLower_toLower (c : Char) : c.toLower.toLower = c.toLower := by
  apply Char.ext
  apply UInt32.toNat_inj.1
  show c.toLower.toLower.toNat = c.toLower.toNat
  rw [toNat_toLower c.toLower, if_neg]
  rw [toNat_toLower c]
  split
  next h => omega
  next h => exact h

theorem map_toLower_map_toLower (cs : List Char) :
    (cs.map Char.toLower).map Char.toLower = cs.map Char.toLower := by
  rw [List.map_map]
  exact List.map_congr_left fun c _ => toLower_toLower c

/-- Every letter may stand in a scheme. -/
theorem isSchemeChar_of_isAlpha {c : Char} (h : c.isAlpha = true) : isSchemeChar c = true := by
  unfold isSchemeChar Char.isAlphanum
  rw [h]
  rfl

/-- Lower case keeps what may stand in a scheme. -/
theorem isSchemeChar_toLower {c : Char} (h : isSchemeChar c = true) :
    isSchemeChar c.toLower = true := by
  by_cases hupper : 65 ≤ c.toNat ∧ c.toNat ≤ 90
  · apply isSchemeChar_of_isAlpha
    rw [isAlpha_toLower]
    exact isAlpha_iff.2 (Or.inl hupper)
  · have hsame : c.toLower = c := by
      apply Char.ext
      apply UInt32.toNat_inj.1
      show c.toLower.toNat = c.toNat
      rw [toNat_toLower, if_neg hupper]
    rw [hsame]
    exact h

/-- What may stand in a scheme is no blank and no control. -/
theorem printed_of_isSchemeChar {c : Char} (h : isSchemeChar c = true) : 0x20 < c.toNat := by
  unfold isSchemeChar Char.isAlphanum Char.isDigit at h
  simp only [Bool.or_eq_true, Bool.and_eq_true, decide_eq_true_iff, isAlpha_iff] at h
  rcases h with (((halpha | hdigit) | rfl) | rfl) | rfl
  · omega
  · have hzero : 48 ≤ c.toNat := hdigit.1
    omega
  · decide
  · decide
  · decide

/-! ## Blanks -/

/-- What is dropped are controls, so a printed character is kept. -/
theorem isDropped_eq_false {c : Char} (h : 0x20 < c.toNat) : isDropped c = false := by
  unfold isDropped
  have hne : ∀ x : Char, x.toNat ≤ 0x20 → c ≠ x := by
    rintro x hx rfl
    omega
  have htab : c ≠ '\t' := hne '\t' (by decide)
  have hfeed : c ≠ '\n' := hne '\n' (by decide)
  have hreturn : c ≠ '\r' := hne '\r' (by decide)
  simp [htab, hfeed, hreturn]

theorem kept_append (as bs : List Char) : kept (as ++ bs) = kept as ++ kept bs :=
  List.filter_append _ _

/-- A printed text is kept as it is. -/
theorem kept_eq_self {cs : List Char} (h : ∀ c ∈ cs, 0x20 < c.toNat) : kept cs = cs := by
  unfold kept
  rw [List.filter_eq_self]
  intro c hc
  rw [isDropped_eq_false (h c hc)]
  rfl

/-- Behind the characters of a printed front comes just what follows it, whatever that has to
drop. -/
theorem behind_append {as : List Char} (h : ∀ c ∈ as, 0x20 < c.toNat) (bs : List Char) :
    behind as.length (as ++ bs) = bs := by
  induction as with
  | nil =>
    cases bs with
    | nil => rfl
    | cons b bs => rfl
  | cons a as ih =>
    show (if isDropped a = true then _ else behind as.length (as ++ bs)) = bs
    rw [isDropped_eq_false (h a List.mem_cons_self)]
    exact ih fun c hc => h c (List.mem_cons_of_mem _ hc)

/-- A text without the blanks and controls at its end. -/
def trimmedEnd (cs : List Char) : List Char := cs.rdropWhile fun c => c.toNat ≤ 0x20

/-- Up to a printed character nothing goes from the end. -/
theorem trimmedEnd_append_cons {c : Char} (hc : 0x20 < c.toNat) (as bs : List Char) :
    trimmedEnd (as ++ c :: bs) = as ++ c :: trimmedEnd bs := by
  have hfront : (c :: as.reverse).dropWhile (fun c => decide (c.toNat ≤ 0x20)) = c :: as.reverse :=
    List.dropWhile_cons_of_neg (by simpa using hc)
  unfold trimmedEnd List.rdropWhile
  rw [List.reverse_append, List.reverse_cons, List.append_assoc, List.singleton_append,
    List.dropWhile_append, hfront]
  split
  next hempty =>
    rw [List.isEmpty_iff.1 hempty, List.reverse_cons, List.reverse_reverse]
    rfl
  next =>
    rw [List.reverse_append, List.reverse_cons, List.reverse_reverse, List.append_assoc]
    rfl

/-- A printed front is out of reach for what is trimmed at the end. -/
theorem trimmedEnd_append {as : List Char} (h : ∀ c ∈ as, 0x20 < c.toNat) (bs : List Char) :
    trimmedEnd (as ++ bs) = as ++ trimmedEnd bs := by
  induction as with
  | nil => rfl
  | cons a as ih =>
    have hone := trimmedEnd_append_cons (h a List.mem_cons_self) [] (as ++ bs)
    rw [List.nil_append, List.nil_append, ih fun c hc => h c (List.mem_cons_of_mem _ hc)] at hone
    exact hone

/-- A text that starts with a printed character is trimmed at its end only. -/
theorem trimmed_ofList {cs : List Char} (h : ∀ c ∈ cs.head?, 0x20 < c.toNat) :
    trimmed (String.ofList cs) = trimmedEnd cs := by
  have hfront : cs.dropWhile (fun c => decide (c.toNat ≤ 0x20)) = cs := by
    cases cs with
    | nil => rfl
    | cons c cs => exact List.dropWhile_cons_of_neg (by simpa using h c rfl)
  unfold trimmed trimmedEnd List.rdropWhile
  rw [String.toList_ofList]
  show ((cs.dropWhile _).reverse.dropWhile _).reverse = _
  rw [hfront]

/-! ## Reading -/

/-- **A scheme.** -/
theorem readScheme?_text {scheme : List Char} (hscheme : ∀ c ∈ scheme, isSchemeChar c = true)
    (rest : List Char) :
    readScheme? (trimmed (String.ofList (scheme ++ ':' :: rest))) =
      if scheme.head?.any Char.isAlpha = true then
        some (String.ofList (scheme.map Char.toLower), trimmedEnd rest)
      else none := by
  have hprinted : ∀ c ∈ scheme ++ [':'], 0x20 < c.toNat := by
    intro c hc
    rcases List.mem_append.1 hc with hc | hc
    · exact printed_of_isSchemeChar (hscheme c hc)
    · rw [List.mem_singleton.1 hc]
      decide
  -- White space is trimmed and line breaks are dropped behind the scheme only.
  have htext : trimmed (String.ofList (scheme ++ ':' :: rest)) =
      (scheme ++ [':']) ++ trimmedEnd rest := by
    rw [trimmed_ofList, trimmedEnd_append_cons (by decide), List.append_assoc,
      List.singleton_append]
    intro c hc
    rw [← List.singleton_append, ← List.append_assoc] at hc
    rw [List.head?_append_of_ne_nil _ (by simp)] at hc
    exact hprinted c (List.mem_of_mem_head? hc)
  have hkept : kept ((scheme ++ [':']) ++ trimmedEnd rest) =
      scheme ++ ':' :: kept (trimmedEnd rest) := by
    rw [kept_append, kept_eq_self hprinted, List.append_assoc, List.singleton_append]
  have hcut : cutAt (fun c => !isSchemeChar c) (scheme ++ ':' :: kept (trimmedEnd rest)) =
      (scheme, ':' :: kept (trimmedEnd rest)) := by
    refine cutAt_append (fun c hc => ?_) (by decide)
    rw [hscheme c hc]
    rfl
  -- So what stands behind the colon is `rest`, trimmed at its end.
  have hbehind : behind (scheme.length + 1) ((scheme ++ [':']) ++ trimmedEnd rest) =
      trimmedEnd rest := by
    have h := behind_append hprinted (trimmedEnd rest)
    rwa [List.length_append, List.length_singleton] at h
  rw [htext]
  unfold readScheme?
  rw [hkept, hcut]
  cases scheme with
  | nil => rfl
  | cons first more =>
    show (if first.isAlpha = true then
      some (_, behind ((first :: more).length + 1) _) else none) = _
    rw [hbehind]
    rfl

/-- A text reads as it does with its scheme in lower case. -/
theorem parse_lower {scheme : List Char} (hscheme : ∀ c ∈ scheme, isSchemeChar c = true)
    (rest : List Char) :
    parse (String.ofList (scheme ++ ':' :: rest)) =
      parse (String.ofList (scheme.map Char.toLower ++ ':' :: rest)) := by
  have hlower : ∀ c ∈ scheme.map Char.toLower, isSchemeChar c = true := by
    intro c hc
    obtain ⟨b, hb, rfl⟩ := List.mem_map.1 hc
    exact isSchemeChar_toLower (hscheme b hb)
  have hhead : (scheme.map Char.toLower).head?.any Char.isAlpha =
    scheme.head?.any Char.isAlpha := by
    cases scheme with
    | nil => rfl
    | cons first more => exact isAlpha_toLower first
  unfold parse
  rw [readScheme?_text hscheme, readScheme?_text hlower, hhead, map_toLower_map_toLower]

end Url

end PeerCache
