import Mathlib.Data.Bool.AllAny
import PeerCache.Cluster.Fallback
import PeerCache.Proofs.Peer.Trip
/-!
# PeerCache — the addresses of peers

The address of a node is a scheme and an authority, like `http://host:8001`. A path behind it leaves
the rest of the URL as it is: `parse_append`. So the base URL of such a node under the default base
path has the base path as its path (`atRoot_of_isAddress`), and what `asked_eq_iff` says holds for
every peer with an address.
-/

namespace PeerCache

namespace Peer

open Url (cutAt)

/-- A character of an authority: no blank, no control, and none that ends it. -/
def inAuthority (c : Char) : Bool := 0x20 < c.toNat && c ∉ ['/', '\\', '?', '#']

/-- A web scheme with an authority behind it. -/
structure IsAddress (addr : String) : Prop where
  split : ∃ scheme ∈ ["http", "https"], ∃ authority : String,
    addr = scheme ++ "://" ++ authority ∧ authority ≠ "" ∧
      ∀ c ∈ authority.toList, inAuthority c = true

/-- A plain authority behind `http://` makes an address. -/
theorem isAddress_http (authority : String) (hne : authority ≠ "")
    (hall : authority.toList.all inAuthority = true) : IsAddress ("http://" ++ authority) :=
  ⟨"http", List.mem_cons_self, authority, rfl, hne, List.all_eq_true.1 hall⟩

/-! ## Reading a base URL -/

/-- What may stand in an authority does not end it. -/
theorem isSlash_eq_false {c : Char} (h : inAuthority c = true) :
    Url.Path.isSlash .web c = false := by
  unfold inAuthority at h
  unfold Url.Path.isSlash
  simp at h
  simp [h]

/-- Whether anything follows an authority matters only where the host may be empty. -/
theorem readAuthority_followed {scheme : String} (hscheme : Url.SchemeKind.of scheme = .web)
    (cs : List Char) (followed followed' : Bool) :
    Url.readAuthority scheme cs followed = Url.readAuthority scheme cs followed' := by
  unfold Url.readAuthority
  obtain ⟨userinfo, rest⟩ := Url.splitUserinfo cs
  by_cases hbare : userinfo = some [] ∧ rest = []
  · obtain ⟨rfl, rfl⟩ := hbare
    simp only [hscheme, if_true]
    cases followed <;> cases followed' <;> rfl
  · have hnot : ∀ b : Bool, ¬ (userinfo = some [] ∧ rest = [] ∧ b = true) :=
      fun b h => hbare ⟨h.1, h.2.1⟩
    simp only [hnot, if_false]

/-- Behind a web scheme, the authority is read up to the path, and the path from its first slash
on. -/
theorem readWeb_address {scheme : String} (hscheme : Url.SchemeKind.of scheme = .web)
    {authority path : List Char} (hne : authority ≠ [])
    (hall : ∀ c ∈ authority, inAuthority c = true) (hpath : path = [] ∨ path.head? = some '/')
    (followed : Bool) :
    Url.readWeb scheme ("//".toList ++ (authority ++ path)) followed =
      (Url.readAuthority scheme authority false).map fun r =>
        (some r.1, Url.Path.read .web ['/'] (path.drop 1)) := by
  -- The authority is not empty, so no third slash is skipped with the two in front.
  have hdrop : ("//".toList ++ (authority ++ path)).dropWhile (Url.Path.isSlash .web)
      = authority ++ path := by
    cases authority with
    | nil => exact absurd rfl hne
    | cons c cs =>
      have hc := isSlash_eq_false (hall c List.mem_cons_self)
      show List.dropWhile _ ('/' :: '/' :: c :: (cs ++ _)) = _
      rw [List.dropWhile_cons_of_pos rfl, List.dropWhile_cons_of_pos rfl,
        List.dropWhile_cons_of_neg (by rw [hc]; decide)]
      rfl
  have hnoslash : ∀ c ∈ authority, Url.Path.isSlash .web c = false :=
    fun c hc => isSlash_eq_false (hall c hc)
  -- It has no slash itself, so it is cut off where the path starts.
  have hcut : cutAt (Url.Path.isSlash .web) (authority ++ path) = (authority, path) := by
    rcases hpath with rfl | hslash
    · rw [List.append_nil]
      exact Url.cutAt_of_not_mem hnoslash
    · obtain ⟨tail, rfl⟩ := List.head?_eq_some_iff.1 hslash
      exact Url.cutAt_append hnoslash rfl
  unfold Url.readWeb
  dsimp only
  rw [hdrop, hcut]
  dsimp only
  rw [readAuthority_followed hscheme authority _ false]
  cases Url.readAuthority scheme authority false with
  | error err => rfl
  | ok r => rfl

theorem kind_of_mem {scheme : String} (h : scheme ∈ ["http", "https"]) :
    Url.SchemeKind.of scheme = .web := by
  have hall : ∀ s ∈ ["http", "https"], Url.SchemeKind.of s = .web := by decide
  exact hall scheme h

/-- What of a text stands in front of its query and its fragment, and these two. -/
def splitTail (rest : List Char) : List Char × List Char :=
  cutAt (fun c => c = '?' || c = '#') (Url.trimmedEnd rest)

/-- How an address reads with any text behind it that is set off by a slash: the authority does not
depend on that text. -/
theorem parse_authority {scheme authority rest : String} (hscheme : scheme ∈ ["http", "https"])
    (hne : authority ≠ "") (hall : ∀ c ∈ authority.toList, inAuthority c = true)
    (hrest : rest = "" ∨ rest.toList.head? = some '/') :
    Url.parse (scheme ++ "://" ++ authority ++ rest) =
      (Url.readAuthority scheme authority.toList false).map fun r =>
        { scheme := scheme
          authority := some r.1
          path := Url.Path.read .web ['/'] ((Url.kept (splitTail rest.toList).1).drop 1)
          shielded := false
          query := (Url.readTail .web (Url.kept (splitTail rest.toList).2)).1
          fragment := (Url.readTail .web (Url.kept (splitTail rest.toList).2)).2 } := by
  -- Two schemes only, and both are lower case already.
  have hknown : ∀ s ∈ ["http", "https"], s.toList.all Url.isSchemeChar = true ∧
      s.toList.head?.any Char.isAlpha = true ∧ String.ofList (s.toList.map Char.toLower) = s := by
    decide
  obtain ⟨hchars, halpha, hlower⟩ := hknown scheme hscheme
  -- Nothing up to the path opens a query or a fragment, or is dropped as white space.
  have hfront : ∀ c ∈ "//".toList ++ authority.toList,
      0x20 < c.toNat ∧ (c = '?' || c = '#') = false := by
    intro c hc
    rcases List.mem_append.1 hc with hc | hc
    · have hslash : c = '/' := by simpa using hc
      rw [hslash]
      decide
    · have h := hall c hc
      unfold inAuthority at h
      simp at h
      simp [h]
  have htext : scheme ++ "://" ++ authority ++ rest = String.ofList
      (scheme.toList ++ ':' :: (("//".toList ++ authority.toList) ++ rest.toList)) := by
    apply String.toList_inj.1
    simp only [String.toList_append, String.toList_ofList, List.append_assoc]
    rfl
  -- So the tail is cut from `rest` alone.
  have hcut : cutAt (fun c => c = '?' || c = '#')
      (("//".toList ++ authority.toList) ++ Url.trimmedEnd rest.toList) =
        (("//".toList ++ authority.toList) ++ (splitTail rest.toList).1,
          (splitTail rest.toList).2) :=
    Url.cutAt_append_left (fun c hc => (hfront c hc).2) _
  have hslash : Url.kept (splitTail rest.toList).1 = [] ∨
      (Url.kept (splitTail rest.toList).1).head? = some '/' := by
    rcases hrest with rfl | hrest
    · exact Or.inl rfl
    · obtain ⟨tail, htail⟩ := List.head?_eq_some_iff.1 hrest
      have hone := Url.trimmedEnd_append_cons (c := '/') (by decide) [] tail
      right
      unfold splitTail
      rw [htail, show '/' :: tail = [] ++ '/' :: tail from rfl, hone]
      rfl
  have hkind := kind_of_mem hscheme
  unfold Url.parse
  rw [htext, Url.readScheme?_text (List.all_eq_true.1 hchars), if_pos halpha, hlower,
    Url.trimmedEnd_append fun c hc => (hfront c hc).1]
  dsimp only
  rw [hcut, hkind]
  dsimp only
  rw [Url.kept_append, Url.kept_eq_self fun c hc => (hfront c hc).1, List.append_assoc,
    readWeb_address hkind (fun h => hne (String.toList_inj.1 h)) hall hslash]
  cases Url.readAuthority scheme authority.toList false with
  | error err => rfl
  | ok r => rfl

/-- A path behind an authority: nothing, or a slash and printed characters that start neither a
query nor a fragment. -/
structure IsPath (path : List Char) : Prop where
  slash : path = [] ∨ path.head? = some '/'
  chars : ∀ c ∈ path, 0x20 < c.toNat ∧ c ≠ '?' ∧ c ≠ '#'

/-- How an address with a path behind it reads. -/
theorem parse_address {scheme authority path : String} (hscheme : scheme ∈ ["http", "https"])
    (hne : authority ≠ "") (hall : ∀ c ∈ authority.toList, inAuthority c = true)
    (hpath : IsPath path.toList) :
    Url.parse (scheme ++ "://" ++ authority ++ path) =
      (Url.readAuthority scheme authority.toList false).map fun r =>
        { scheme := scheme
          authority := some r.1
          path := Url.Path.read .web ['/'] (path.toList.drop 1)
          shielded := false
          query := none
          fragment := none } := by
  have hprinted : ∀ c ∈ path.toList, 0x20 < c.toNat := fun c hc => (hpath.chars c hc).1
  have htail : splitTail path.toList = (path.toList, []) := by
    have hend : Url.trimmedEnd path.toList = path.toList := by
      have h := Url.trimmedEnd_append hprinted []
      rwa [show Url.trimmedEnd [] = [] from rfl, List.append_nil] at h
    unfold splitTail
    rw [hend]
    refine Url.cutAt_of_not_mem fun c hc => ?_
    obtain ⟨-, hquestion, hnumber⟩ := hpath.chars c hc
    simp [hquestion, hnumber]
  have hrest : path = "" ∨ path.toList.head? = some '/' :=
    hpath.slash.imp_left fun h => String.toList_inj.1 h
  rw [parse_authority hscheme hne hall hrest, htail, Url.kept_eq_self hprinted]
  rfl

theorem isPath_empty : IsPath "".toList :=
  ⟨Or.inl rfl, fun c hc => by cases hc⟩

theorem isPath_defaultBasePath : IsPath defaultBasePath.toList :=
  ⟨Or.inr (by decide), List.all_iff_forall_prop.1 (by decide)⟩

/-- With a path behind it, an address reads as it does alone, but for the path. -/
theorem parse_append {addr path : String} (haddr : IsAddress addr) (hpath : IsPath path.toList) :
    Url.parse (addr ++ path) = (Url.parse addr).map fun a =>
      { a with path := Url.Path.read .web ['/'] (path.toList.drop 1) } := by
  obtain ⟨scheme, hscheme, authority, rfl, hne, hall⟩ := haddr.split
  have hbare := parse_address hscheme hne hall isPath_empty
  rw [String.append_empty] at hbare
  rw [hbare, parse_address hscheme hne hall hpath]
  cases Url.readAuthority scheme authority.toList false with
  | error err => rfl
  | ok r => rfl

/-- What is read with a path behind it is the address with this path. -/
theorem parse_append_eq_ok {addr path : String} (haddr : IsAddress addr)
    (hpath : IsPath path.toList) {u : Url} (h : Url.parse (addr ++ path) = .ok u) :
    ∃ a, Url.parse addr = .ok a ∧
      u = { a with path := Url.Path.read .web ['/'] (path.toList.drop 1) } := by
  rw [parse_append haddr hpath] at h
  cases hparse : Url.parse addr with
  | error err =>
    rw [hparse] at h
    cases h
  | ok a =>
    rw [hparse] at h
    cases h
    exact ⟨a, rfl, rfl⟩

theorem kind_of_isAddress {addr : String} (haddr : IsAddress addr) {a : Url}
    (h : Url.parse addr = .ok a) : a.kind = .web := by
  obtain ⟨scheme, hscheme, authority, rfl, hne, hall⟩ := haddr.split
  have hbare := parse_address hscheme hne hall isPath_empty
  rw [String.append_empty, h] at hbare
  cases hread : Url.readAuthority scheme authority.toList false with
  | error err =>
    rw [hread] at hbare
    cases hbare
  | ok r =>
    rw [hread] at hbare
    cases hbare
    exact kind_of_mem hscheme

/-- An address with the default base path behind it is a base URL under the default base path. -/
theorem atRoot_of_isAddress {addr : String} (h : IsAddress addr) :
    AtRoot (addr ++ defaultBasePath) := by
  intro u hu
  obtain ⟨a, -, rfl⟩ := parse_append_eq_ok h isPath_defaultBasePath hu
  show Url.Path.popIfEmpty (Url.Path.read .web ['/'] (defaultBasePath.toList.drop 1)) = root
  decide

/-! ## Where an address leads -/

/-- What is set off by a slash makes no difference to where an address leads. -/
theorem originOf?_append {addr rest : String} (haddr : IsAddress addr)
    (hrest : rest = "" ∨ rest.toList.head? = some '/') :
    originOf? (addr ++ rest) = originOf? addr := by
  obtain ⟨scheme, hscheme, authority, rfl, hne, hall⟩ := haddr.split
  have hbare := parse_authority hscheme hne hall (Or.inl rfl)
  rw [String.append_empty] at hbare
  unfold originOf?
  rw [hbare, parse_authority hscheme hne hall hrest]
  cases Url.readAuthority scheme authority.toList false with
  | error err => simp only [Except.map, Except.toOption, Option.map_none]
  | ok r => simp only [Except.map, Except.toOption, Option.map_some, Url.origin, Url.host?,
      Url.port?]

/-- A question goes where its base URL leads. -/
theorem originOf?_of_request {baseUrl group key : String} {url : Url}
    (h : request baseUrl group key = .ok url) : originOf? baseUrl = some url.origin := by
  obtain ⟨v, hurl, -, hsame⟩ := request_eq_ok h
  obtain ⟨u, hparse, -, rfl⟩ := urlFor_eq_ok_iff.1 hurl
  unfold originOf?
  rw [hparse]
  rcases hsame with rfl | rfl
  · rw [Url.origin_push, Url.origin_push, Url.origin_popIfEmpty]
    rfl
  · rw [Url.origin_withoutUserinfo, Url.origin_push, Url.origin_push, Url.origin_popIfEmpty]
    rfl

end Peer

end PeerCache
