import PeerCache.Proofs.Peer.Address
import PeerCache.Proofs.Url.Read
import PeerCache.Url.Origin
/-!
# PeerCache — where a question arrives

A peer is asked at its address with the base path behind it, which is read as a URL; the node there
compares what it is sent with the base path as it was written. The two meet as follows:

* **`parts_unique`** — a path is cut in one way only into a base path, a group and a key that is
  read off as it was sent.
* **`route_eq_value_iff_front`** — so the question is taken for itself exactly if the path that the
  group and the key were put behind is the base path.
* **`reaches_iff`** — this is a check on the address and the base path alone, `readsAsWritten`. It
  succeeds for an address with a plain base path (**`readsAsWritten_of_isLiteral`**).
-/

namespace PeerCache

open Text
open Url (utf8_ofList_append)

/-! ## Slashes of encoded bytes -/

namespace Text

theorem utf8?_eq_some {bytes : List UInt8} {s : String} :
    utf8? bytes = some s ↔ bytes = utf8 s := by
  constructor
  · intro h
    unfold utf8? String.fromUTF8? at h
    split at h
    next =>
      cases h
      rfl
    next => cases h
  · rintro rfl
    exact utf8?_utf8 s

namespace Percent

/-- A byte in front of a slash is decoded as it is: an escape takes two digits. -/
theorem decode_cons_slash (b : UInt8) (rest : List UInt8) :
    decode (b :: 0x2F :: rest) = b :: 0x2F :: decode rest := by
  have hslash : decode (0x2F :: rest) = 0x2F :: decode rest := decode_cons_of_ne _ (by decide) rest
  by_cases hb : b = sign
  · cases rest with
    | nil => rfl
    | cons lo rest =>
      have hpair : pair? 0x2F lo = none := rfl
      rw [← hslash]
      simp only [decode, if_pos hb, hpair]
  · rw [decode_cons_of_ne b hb, hslash]

/-- A slash is part of no escape. -/
theorem decode_append_slash (bytes rest : List UInt8) :
    decode (bytes ++ 0x2F :: rest) = decode bytes ++ 0x2F :: decode rest := by
  fun_induction decode bytes with
  | case1 => exact decode_cons_of_ne _ (by decide) rest
  | case2 b => exact decode_cons_slash b rest
  | case3 b c =>
    -- two bytes in front: with the slash they could be an escape, which a slash cannot end
    show decode (b :: c :: 0x2F :: rest) = b :: c :: 0x2F :: decode rest
    by_cases hb : b = sign
    · have hpair : pair? c 0x2F = none := by
        unfold pair?
        cases value? c <;> rfl
      rw [← decode_cons_slash c rest]
      simp only [decode, if_pos hb, hpair]
    · rw [decode_cons_of_ne b hb, decode_cons_slash]
  | case4 hi lo more v hpair ih =>
    show decode (sign :: hi :: lo :: (more ++ 0x2F :: rest)) = _
    simp only [decode, if_true, hpair, ih]
    rfl
  | case5 hi lo more hpair ih =>
    have ih : decode (hi :: lo :: (more ++ 0x2F :: rest)) =
      decode (hi :: lo :: more) ++ 0x2F :: decode rest := ih
    have hsign : ∀ bytes, decode (sign :: hi :: lo :: bytes) =
      sign :: decode (hi :: lo :: bytes) := by
      intro bytes
      rw [decode, if_pos rfl, hpair]
    show decode (sign :: hi :: lo :: (more ++ 0x2F :: rest)) = _
    rw [hsign, ih]
    rfl
  | case6 b hi lo more hb ih =>
    have ih : decode (hi :: lo :: (more ++ 0x2F :: rest)) =
      decode (hi :: lo :: more) ++ 0x2F :: decode rest := ih
    show decode (b :: hi :: lo :: (more ++ 0x2F :: rest)) = _
    rw [decode_cons_of_ne b hb, ih]
    rfl

end Percent

end Text

namespace Peer

/-- The bytes on either side of the last slash of a list are determined. -/
theorem eq_of_append_last_slash {as bs cs ds : List UInt8} (hbs : (0x2F : UInt8) ∉ bs)
    (hds : (0x2F : UInt8) ∉ ds) (h : as ++ 0x2F :: bs = cs ++ 0x2F :: ds) : as = cs ∧ bs = ds := by
  have hrev := congrArg List.reverse h
  simp only [List.reverse_append, List.reverse_cons, List.append_assoc, List.singleton_append]
    at hrev
  obtain ⟨hback, hfront⟩ :=
    eq_of_append_slash (fun hm => hbs (List.mem_reverse.1 hm))
      (fun hm => hds (List.mem_reverse.1 hm)) hrev
  exact ⟨List.reverse_injective hfront, List.reverse_injective hback⟩

/-- A path with a group and a key behind it is cut in no other way into a base path, a group and a
key that reads the same: if the cut were earlier, the key that is read off would be longer. -/
theorem parts_unique {front G K bytes g k : List UInt8} (hG : (0x2F : UInt8) ∉ G)
    (hK : (0x2F : UInt8) ∉ K) (hg : (0x2F : UInt8) ∉ g)
    (hkey : Percent.decode k = Percent.decode K)
    (h : front ++ 0x2F :: (G ++ 0x2F :: K) = bytes ++ 0x2F :: (g ++ 0x2F :: k)) :
    front = bytes := by
  have hleft : (front ++ 0x2F :: G) ++ 0x2F :: K = bytes ++ 0x2F :: (g ++ 0x2F :: k) := by
    rw [List.append_assoc, List.cons_append]
    exact h
  by_cases hk : (0x2F : UInt8) ∈ k
  · -- With a slash in `k` its last part alone is `K`, which decodes to less than all of `k` does.
    obtain ⟨zs, ys, hrev, hzs⟩ := List.eq_append_cons_of_mem (List.mem_reverse.2 hk)
    have hsplit : k = ys.reverse ++ 0x2F :: zs.reverse := by
      have := congrArg List.reverse hrev
      simpa using this
    rw [hsplit, show bytes ++ 0x2F :: (g ++ 0x2F :: (ys.reverse ++ 0x2F :: zs.reverse)) =
      (bytes ++ 0x2F :: (g ++ 0x2F :: ys.reverse)) ++ 0x2F :: zs.reverse by simp] at hleft
    obtain ⟨-, rfl⟩ := eq_of_append_last_slash hK (fun hm => hzs (List.mem_reverse.1 hm)) hleft
    have hlength := congrArg List.length hkey
    rw [hsplit, Percent.decode_append_slash, List.length_append, List.length_cons] at hlength
    omega
  · rw [show bytes ++ 0x2F :: (g ++ 0x2F :: k) = (bytes ++ 0x2F :: g) ++ 0x2F :: k by simp] at hleft
    obtain ⟨hmore, -⟩ := eq_of_append_last_slash hK hk hleft
    exact (eq_of_append_last_slash hG hg hmore).1

/-! ## Paths that are sent as they stand -/

/-- A path that starts with a slash and is all that a request target is read for. -/
structure IsRooted (path : List Char) : Prop where
  slash : path.head? = some '/'
  question : '?' ∉ path
  number : '#' ∉ path

/-- A path that was read is rooted: a question mark or a number sign would have ended it. -/
theorem isRooted_read (cs : List Char) : IsRooted (Url.Path.read .web ['/'] cs) where
  slash := Url.head_read cs
  question := Url.not_mem_read (by decide) (by decide) Url.question_not_mem_escape cs
  number := Url.not_mem_read (by decide) (by decide) Url.number_not_mem_escape cs

theorem IsRooted.popIfEmpty {path : List Char} (h : IsRooted path) :
    IsRooted (Url.Path.popIfEmpty path) := by
  unfold Url.Path.popIfEmpty
  split
  next hlong =>
    obtain ⟨tail, rfl⟩ := List.head?_eq_some_iff.1 h.slash
    have hsub : ('/' :: tail).dropLast ⊆ '/' :: tail := (List.dropLast_prefix _).subset
    refine ⟨?_, fun hm => h.question (hsub hm), fun hm => h.number (hsub hm)⟩
    cases tail with
    | nil => simp at hlong
    | cons c tail => rfl
  next => exact h

/-- A segment more leaves a path rooted. -/
theorem IsRooted.push {path : List Char} (h : IsRooted path) (text : List Char) :
    IsRooted (Url.Path.push .web path text) where
  slash := Url.head_push h.slash text
  question := Url.not_mem_push (by decide) (Url.not_mem_encode (Url.segment_question true)
    Url.question_not_mem_escape) h.question text
  number := Url.not_mem_push (by decide) (Url.not_mem_encode (Url.segment_number true)
    Url.number_not_mem_escape) h.number text

/-- A rooted path is the path of the request that is sent for it. -/
theorem IsRooted.path_requestOf {url : Url} (h : IsRooted url.path) :
    (Http.Target.parse (Cluster.requestOf url).target).path = utf8 (String.ofList url.path) :=
  Peer.path_requestOf h.slash h.question h.number

/-! ## A group and a key -/

/-- A text that a URL takes as one segment without loss. -/
structure IsSegment (text : String) : Prop where
  plain : Plain text
  single : text ≠ "."
  double : text ≠ ".."

instance (text : String) : Decidable (IsSegment text) :=
  decidable_of_iff (Plain text ∧ text ≠ "." ∧ text ≠ "..")
    ⟨fun h => ⟨h.1, h.2.1, h.2.2⟩, fun h => ⟨h.plain, h.single, h.double⟩⟩

/-- A segment is pushed as it is written, behind the slash that opens for it. -/
theorem push_of_isSegment {text : String} (h : IsSegment text) (path : List Char) :
    Url.Path.push .web path text.toList = Url.opened path ++ Url.written text.toList := by
  have hkept : Url.kept text.toList = text.toList := kept_eq_self_iff.2 h.plain
  have hsingle : text.toList ≠ ['.'] := fun heq => h.single (String.toList_inj.1 heq)
  have hdouble : text.toList ≠ ['.', '.'] := fun heq => h.double (String.toList_inj.1 heq)
  rcases Url.push_cases path text.toList with ⟨hdots, -⟩ | ⟨-, -, hdots, -⟩ | hpush
  · exact (hdots.elim hsingle hdouble).elim
  · rw [hkept] at hdots
    exact (hdots.elim hsingle hdouble).elim
  · rw [hpush, hkept]

/-- A base path without a colon has no parameters: it is one text. -/
theorem pieces_of_not_mem {basePath : String} (h : ':' ∉ basePath.toList) :
    pieces basePath = [.text (utf8 (trimSlashes basePath))] := by
  have hsub : (trimSlashes basePath).toList ⊆ basePath.toList := by
    unfold trimSlashes dropEndWhile
    rw [String.toList_ofList]
    intro c hc
    exact List.mem_reverse.1 ((List.dropWhile_suffix _).subset (List.mem_reverse.1 hc))
  have hone : (trimSlashes basePath).toList.splitOnP (· = ':') =
    [(trimSlashes basePath).toList] := by
    refine List.splitOnP_eq_singleton fun c hc => ?_
    rw [decide_eq_false_iff_not]
    rintro rfl
    exact h (hsub hc)
  unfold pieces
  simp only [hone, List.flatMap_nil, String.ofList_toList]

/-- A path without a slash at its end. -/
theorem getLast?_trimSlashes (s : String) : (trimSlashes s).toList.getLast? ≠ some '/' := by
  unfold trimSlashes dropEndWhile
  rw [String.toList_ofList, List.getLast?_reverse]
  intro h
  have hhead := List.head?_dropWhile_not (fun c => c == '/') s.toList.reverse
  rw [h] at hhead
  simp at hhead

/-- A path with a group and a key behind it. At the root an empty group leaves nothing in front of
the key. -/
theorem push_push {front : List Char} (hfront : front.head? = some '/') {group key : String}
    (hgroup : IsSegment group) (hkey : IsSegment key) :
    (front = ['/'] ∧ Url.Path.push .web (Url.Path.push .web front group.toList) key.toList =
      '/' :: Url.written key.toList) ∨
    ∃ start, (start = front ∨ start = [] ∧ front = ['/']) ∧
      Url.Path.push .web (Url.Path.push .web front group.toList) key.toList =
        start ++ '/' :: (Url.written group.toList ++ '/' :: Url.written key.toList) := by
  rw [push_of_isSegment hgroup, push_of_isSegment hkey]
  -- A push opens a segment by a slash, save on the bare root, whose own slash is used.
  obtain ⟨start, hstart, hwhich⟩ : ∃ start, Url.opened front = start ++ ['/'] ∧
      (start = front ∨ start = [] ∧ front = ['/']) := by
    unfold Url.opened
    split
    next h => exact ⟨[], h, Or.inr ⟨rfl, h⟩⟩
    next => exact ⟨front, rfl, Or.inl rfl⟩
  rw [hstart]
  -- The first push leaves the bare root only if both the front and the group were empty.
  by_cases hbare : start ++ ['/'] ++ Url.written group.toList = ['/']
  · left
    rw [hbare]
    refine ⟨?_, rfl⟩
    rcases hwhich with rfl | ⟨-, h⟩
    · obtain ⟨tail, rfl⟩ := List.head?_eq_some_iff.1 hfront
      have hlength := congrArg List.length hbare
      simp only [List.length_append, List.length_cons, List.length_nil] at hlength
      omega
    · exact h
  · right
    refine ⟨start, hwhich, ?_⟩
    rw [show Url.opened (start ++ ['/'] ++ Url.written group.toList) =
      start ++ ['/'] ++ Url.written group.toList ++ ['/'] from if_neg hbare]
    simp only [List.append_assoc, List.cons_append, List.nil_append]

/-- What is written for a text that is not empty is not empty. -/
theorem utf8_written_ne_nil {text : String} (h : text ≠ "") :
    utf8 (String.ofList (Url.written text.toList)) ≠ [] := by
  intro hnil
  have hdecode := Url.decode_written text.toList
  rw [hnil] at hdecode
  have htext : [] = text.toList := Url.utf8_ofList_injective hdecode
  exact h (String.toList_inj.1 htext.symm)

/-- Behind a path, a group and a key are read off as themselves exactly if the path is the base
path. -/
theorem route_eq_value_iff_front {basePath group key : String} (hcolon : ':' ∉ basePath.toList)
    (hbase : trimSlashes basePath ≠ "") (hgroup : IsSegment group) (hkey : IsSegment key)
    (hne : key ≠ "") {url : Url} {front : List Char} (hfront : IsRooted front)
    (hpath : url.path =
      Url.Path.push .web (Url.Path.push .web front group.toList) key.toList) :
    Route.ofRequest basePath (Cluster.requestOf url) = .value group key ↔
      front = (trimSlashes basePath).toList := by
  have hrooted : IsRooted url.path := hpath ▸ (hfront.push _).push _
  have hbytes : utf8 (trimSlashes basePath) =
        utf8 (String.ofList (trimSlashes basePath).toList) := by
    rw [String.ofList_toList]
  rw [route_text_eq_value_iff (pieces_of_not_mem hcolon), hrooted.path_requestOf, hbytes]
  constructor
  · rintro ⟨-, g, k, hcut, hg, -, -, hk⟩
    rw [hpath] at hcut
    rcases push_push hfront.slash hgroup hkey with ⟨-, hbare⟩ | ⟨start, hstart, hparts⟩
    · -- one slash is not enough for a base path, a group and a key
      rw [hbare, utf8_cons_slash] at hcut
      have hcount := congrArg (List.count 0x2F) hcut
      rw [List.count_cons_self, List.count_eq_zero.2 (Url.slash_not_mem_written _),
        List.count_append, List.count_cons_self, List.count_append, List.count_cons_self] at hcount
      omega
    · rw [hparts, utf8_parts] at hcut
      have hsame : Percent.decode k =
          Percent.decode (utf8 (String.ofList (Url.written key.toList))) := by
        rw [utf8?_eq_some.1 hk, Url.decode_written, String.ofList_toList]
      have heq := Url.utf8_ofList_injective (parts_unique (Url.slash_not_mem_written _)
        (Url.slash_not_mem_written _) hg hsame hcut)
      rcases hstart with rfl | ⟨rfl, -⟩
      · exact heq
      · exact absurd (String.toList_inj.1 heq.symm) hbase
  · intro hsame
    have hlong : front ≠ ['/'] := by
      intro heq
      exact getLast?_trimSlashes basePath (by rw [← hsame, heq]; rfl)
    refine ⟨rfl, utf8 (String.ofList (Url.written group.toList)),
      utf8 (String.ofList (Url.written key.toList)), ?_, Url.slash_not_mem_written _,
      utf8_written_ne_nil hne, ?_, ?_⟩
    · rcases push_push hfront.slash hgroup hkey with ⟨hroot, -⟩ | ⟨start, hstart, hparts⟩
      · exact absurd hroot hlong
      · rcases hstart with rfl | ⟨-, hroot⟩
        · rw [hpath, hparts, utf8_parts, hsame]
        · exact absurd hroot hlong
    · rw [Url.decode_written, String.ofList_toList, utf8?_utf8]
    · rw [Url.decode_written, String.ofList_toList, utf8?_utf8]

/-! ## What the default base path transmits -/

/-- Under the default base path, the URL for a group and a key has both pushed onto the root. -/
theorem path_of_urlFor {addr group key : String} (haddr : IsAddress addr) {u : Url}
    (h : urlFor (addr ++ defaultBasePath) group key = .ok u) :
    u.path = Url.Path.push .web (Url.Path.push .web root group.toList) key.toList := by
  obtain ⟨v, hparse, -, rfl⟩ := urlFor_eq_ok_iff.1 h
  have hroot := atRoot_of_isAddress haddr v hparse
  obtain ⟨a, ha, rfl⟩ := parse_append_eq_ok haddr isPath_defaultBasePath hparse
  rw [← hroot, ← kind_of_isAddress haddr ha]
  rfl

theorem slashes_push_le (path text : List Char) :
    slashes (Url.Path.push .web path text) ≤ slashes path + 1 := by
  have hopened := slashes_opened path
  rcases Url.push_cases path text with ⟨-, h⟩ | ⟨-, -, -, r, rfl, hstart, -⟩ | h
  · rw [h]
    exact Nat.le_succ _
  · exact (slashes_mono hstart).trans hopened
  · rw [h, slashes_append, slashes_written]
    exact hopened

/-- A dot or two are not pushed at all. -/
theorem push_of_dots {text : String} (h : text = "." ∨ text = "..") (path : List Char) :
    Url.Path.push .web path text.toList = path := by
  rcases h with rfl | rfl
  · rfl
  · rfl

/-- Under the default base path, an address can be asked for just this group and key. -/
def Transmitted (group key : String) : Prop :=
  ∃ addr u, IsAddress addr ∧ urlFor (addr ++ defaultBasePath) group key = .ok u ∧
    Route.ofRequest defaultBasePath (Cluster.requestOf u) = .value group key

/-- Only groups and keys that are segments can be asked for. -/
theorem Transmitted.isSegment {group key : String} (h : Transmitted group key) :
    IsSegment group ∧ IsSegment key ∧ key ≠ "" := by
  obtain ⟨addr, u, haddr, hurl, hroute⟩ := h
  have hpath := path_of_urlFor haddr hurl
  obtain ⟨hkey, hgroup⟩ := asked_of_path hpath (asked?_eq_some.2 hroute)
  have hrooted : IsRooted u.path := by
    rw [hpath]
    exact ((⟨by decide, by decide, by decide⟩ : IsRooted root).push _).push _
  obtain ⟨-, g, k, hcut, hg, hk, -, -⟩ := route_eq_value_iff.1 hroute
  rw [hrooted.path_requestOf, hpath] at hcut
  -- a path with a base path, a group and a key has three slashes, and a dot brings none
  have hcount : 3 ≤ slashes (Url.Path.push .web (Url.Path.push .web root group.toList)
      key.toList) := by
    have hbase : (utf8 "/_distributed_cache").count 0x2F = 1 := by decide
    unfold slashes
    rw [hcut, List.count_append, List.count_cons_self, List.count_append, List.count_cons_self,
      hbase]
    omega
  have hfirst := slashes_push_le root group.toList
  have hsecond := slashes_push_le (Url.Path.push .web root group.toList) key.toList
  rw [slashes_root] at hfirst
  have hgroupDots : ¬ (group = "." ∨ group = "..") := by
    intro hdots
    rw [push_of_dots hdots, slashes_root] at hsecond
    rw [push_of_dots hdots] at hcount
    omega
  have hkeyDots : ¬ (key = "." ∨ key = "..") := by
    intro hdots
    rw [push_of_dots hdots] at hcount
    omega
  refine ⟨⟨?_, fun h => hgroupDots (Or.inl h), fun h => hgroupDots (Or.inr h)⟩,
    ⟨kept_eq_self_iff.1 hkey.symm, fun h => hkeyDots (Or.inl h), fun h => hkeyDots (Or.inr h)⟩, ?_⟩
  · rcases hgroup with hgroup | ⟨rfl, -⟩
    · exact kept_eq_self_iff.1 hgroup.symm
    · intro c hc
      cases hc
  · rintro rfl
    rw [show utf8 "/_distributed_cache" = utf8 (String.ofList root) by decide] at hcut
    exact hk (push_key hcut hg hk).2

/-- At an address under the default base path, a group and a key that are segments are asked for as
themselves. -/
theorem route_of_isSegment {addr group key : String} (haddr : IsAddress addr)
    (hgroup : IsSegment group) (hkey : IsSegment key) (hne : key ≠ "") {u : Url}
    (h : urlFor (addr ++ defaultBasePath) group key = .ok u) :
    Route.ofRequest defaultBasePath (Cluster.requestOf u) = .value group key := by
  have hroot : IsRooted root := ⟨by decide, by decide, by decide⟩
  have hfront : Route.ofRequest defaultBasePath (Cluster.requestOf u) = .value group key ↔
      root = (trimSlashes defaultBasePath).toList :=
    route_eq_value_iff_front (by decide) (by decide) hgroup hkey hne hroot (path_of_urlFor haddr h)
  exact hfront.2 (by decide)

/-- A group and a key can be asked for exactly if both are segments and the key is not empty. -/
theorem transmitted_iff {group key : String} :
    Transmitted group key ↔ IsSegment group ∧ IsSegment key ∧ key ≠ "" := by
  refine ⟨Transmitted.isSegment, fun ⟨hgroup, hkey, hne⟩ => ?_⟩
  have haddr : IsAddress "http://[::1]" :=
    isAddress_http "[::1]" (by decide) (by decide)
  have hsome : (Url.parse ("http://[::1]" ++ defaultBasePath)).toOption.any (!·.isOpaque) =
    true := by
    decide +kernel
  cases hparse : Url.parse ("http://[::1]" ++ defaultBasePath) with
  | error err =>
    rw [hparse] at hsome
    cases hsome
  | ok v =>
    rw [hparse] at hsome
    have hsome : (!v.isOpaque) = true := hsome
    rw [Bool.not_eq_true'] at hsome
    have hurl : urlFor ("http://[::1]" ++ defaultBasePath) group key =
        .ok ((v.popIfEmpty.push group).push key) := urlFor_eq_ok_iff.2 ⟨v, hparse, hsome, rfl⟩
    exact ⟨"http://[::1]", _, haddr, hurl, route_of_isSegment haddr hgroup hkey hne hurl⟩

/-! ## Base URLs that read as written -/

/-- Whether the base URL at an address leads where the address leads, and below the base path as it
is written. -/
def readsAsWritten (addr basePath : String) : Bool :=
  match Url.parse addr, Url.parse (addr ++ basePath) with
  | .ok a, .ok u =>
    u.origin = a.origin && Url.Path.popIfEmpty u.path = (trimSlashes basePath).toList
  | _, _ => false

/-- A base URL reads as written exactly if both it and the address can be read, to one origin, with
the base path as its path. -/
theorem readsAsWritten_iff {addr basePath : String} :
    readsAsWritten addr basePath = true ↔
      ∃ a u, Url.parse addr = .ok a ∧ Url.parse (addr ++ basePath) = .ok u ∧
        u.origin = a.origin ∧ Url.Path.popIfEmpty u.path = (trimSlashes basePath).toList := by
  unfold readsAsWritten
  cases hparse : Url.parse addr with
  | error err => simp
  | ok a =>
    cases hbase : Url.parse (addr ++ basePath) with
    | error err => simp
    | ok u => simp

/-- The question for a key of a group to the peer at an address leads there: its URL has the origin
of the address, and a node with the same base path serves it as this group and key. -/
def Reaches (addr basePath group key : String) : Prop :=
  ∃ a u, Url.parse addr = .ok a ∧ urlFor (addr ++ basePath) group key = .ok u ∧
    u.origin = a.origin ∧ Route.ofRequest basePath (Cluster.requestOf u) = .value group key

theorem kind_of_origin {u v : Url} (h : u.origin = v.origin) : u.kind = v.kind :=
  congrArg Url.SchemeKind.of (congrArg Prod.fst h)

/-- For a group and a key that can be asked for at all, a question reaches its peer exactly if the
base URL reads as written. -/
theorem reaches_iff {addr basePath group key : String} (hcolon : ':' ∉ basePath.toList)
    (hbase : trimSlashes basePath ≠ "") (hgroup : IsSegment group) (hkey : IsSegment key)
    (hne : key ≠ "") (hweb : ∀ a, Url.parse addr = .ok a → a.kind = .web) :
    Reaches addr basePath group key ↔ readsAsWritten addr basePath = true := by
  rw [readsAsWritten_iff]
  -- both sides read the base URL to one `v` with the origin of the address
  have hread : ∀ a v, Url.parse addr = .ok a → Url.parse (addr ++ basePath) = .ok v →
      v.origin = a.origin → v.isOpaque = false ∧
        (Route.ofRequest basePath (Cluster.requestOf ((v.popIfEmpty.push group).push key)) =
            .value group key ↔ Url.Path.popIfEmpty v.path = (trimSlashes basePath).toList) := by
    intro a v ha hv horigin
    have hkind : v.kind = .web := (kind_of_origin horigin).trans (hweb a ha)
    obtain ⟨⟨authority, hauthority⟩, cs, hpath⟩ := Url.parse_web hv hkind
    constructor
    · unfold Url.isOpaque
      rw [hauthority]
      rfl
    · have hrooted : IsRooted (Url.Path.popIfEmpty v.path) := by
        rw [hpath]
        exact (isRooted_read cs).popIfEmpty
      refine route_eq_value_iff_front hcolon hbase hgroup hkey hne hrooted ?_
      rw [← hkind]
      rfl
  constructor
  · rintro ⟨a, u, ha, hurl, horigin, hroute⟩
    obtain ⟨v, hv, -, rfl⟩ := urlFor_eq_ok_iff.1 hurl
    rw [Url.origin_push, Url.origin_push, Url.origin_popIfEmpty] at horigin
    exact ⟨a, v, ha, hv, horigin, (hread a v ha hv horigin).2.1 hroute⟩
  · rintro ⟨a, v, ha, hv, horigin, hpath⟩
    obtain ⟨hsegments, hroute⟩ := hread a v ha hv horigin
    exact ⟨a, _, ha, urlFor_eq_ok_iff.2 ⟨v, hv, hsegments, rfl⟩, horigin, hroute.2 hpath⟩

/-! ## Plain base paths -/

/-- A base path that stands in a URL as it is written: none of its characters is encoded, no segment
is a dot or two, and one slash stands at the end. -/
structure IsLiteral (basePath : String) : Prop where
  chars : ∀ c ∈ basePath.toList, Url.EncodeSet.path c = false ∧ c ≠ '\\'
  segments : ∀ seg ∈ basePath.toList.splitOn '/',
    Url.Path.isSingleDot seg = false ∧ Url.Path.isDoubleDot seg = false
  last : basePath.toList.dropLast.getLast? ≠ some '/'

/-- A base path is something between two slashes. -/
theorem isValidBasePath_split {basePath : String} (h : isValidBasePath basePath = true) :
    ∃ mid, basePath.toList = '/' :: (mid ++ ['/']) := by
  unfold isValidBasePath at h
  simp only [Bool.and_eq_true, decide_eq_true_eq] at h
  obtain ⟨⟨hlong, hhead⟩, hlast⟩ := h
  obtain ⟨rest, hrest⟩ := List.head?_eq_some_iff.1 hhead
  rcases List.eq_nil_or_concat rest with rfl | ⟨mid, c, rfl⟩
  · rw [String.toList_inj.1 (hrest.trans (by decide : ['/'] = "/".toList))] at hlong
    exact absurd hlong (by decide)
  · rw [hrest, List.concat_eq_append, ← List.cons_append, List.getLast?_concat] at hlast
    cases hlast
    exact ⟨mid, by rw [hrest, List.concat_eq_append]⟩

/-- A plain base path may stand behind an address. -/
theorem isPath_of_isLiteral {basePath : String} (hvalid : isValidBasePath basePath = true)
    (h : IsLiteral basePath) : IsPath basePath.toList := by
  obtain ⟨mid, hmid⟩ := isValidBasePath_split hvalid
  refine ⟨Or.inr (by rw [hmid]; rfl), fun c hc => ?_⟩
  have hset := (h.chars c hc).1
  have hone : ∀ x, Url.EncodeSet.path x = true → c ≠ x := by
    rintro x hx rfl
    rw [hset] at hx
    cases hx
  refine ⟨?_, hone '?' (by decide), hone '#' (by decide)⟩
  have hcontrol : ¬ c.toNat < 0x20 := by
    intro hlt
    have hcovered : Url.EncodeSet.path c = true := by
      simp [Url.EncodeSet.path, Url.EncodeSet.fragment, Url.EncodeSet.controls, hlt]
    rw [hset] at hcovered
    cases hcovered
  have hblank : c.toNat ≠ 0x20 := fun heq =>
    hone ' ' (by decide) (Char.ext (UInt32.toNat_inj.1 heq))
  omega

/-- Without the slash at its end, a base path is what is left of it without all of them. -/
theorem trimSlashes_of_last {basePath : String} (hvalid : isValidBasePath basePath = true)
    (hlast : basePath.toList.dropLast.getLast? ≠ some '/') :
    (trimSlashes basePath).toList = basePath.toList.dropLast := by
  obtain ⟨mid, hmid⟩ := isValidBasePath_split hvalid
  obtain ⟨init, hinit⟩ : ∃ init, basePath.toList = init ++ ['/'] := ⟨'/' :: mid, hmid⟩
  rw [hinit, List.dropLast_concat] at hlast ⊢
  unfold trimSlashes dropEndWhile
  rw [String.toList_ofList, hinit, List.reverse_append, List.reverse_singleton,
    List.singleton_append, List.dropWhile_cons_of_pos rfl]
  cases hrev : init.reverse with
  | nil =>
    rw [List.reverse_eq_nil_iff.1 hrev]
    rfl
  | cons c rest =>
    have hc : c ≠ '/' := by
      rintro rfl
      rw [List.getLast?_eq_head?_reverse, hrev] at hlast
      exact hlast rfl
    rw [List.dropWhile_cons_of_neg (by simpa using hc), ← hrev, List.reverse_reverse]

/-- A plain base path is read as it is written. -/
theorem read_of_isLiteral {basePath : String} (hvalid : isValidBasePath basePath = true)
    (h : IsLiteral basePath) :
    Url.Path.read .web ['/'] (basePath.toList.drop 1) = basePath.toList := by
  obtain ⟨mid, hmid⟩ := isValidBasePath_split hvalid
  obtain ⟨rest, hrest⟩ : ∃ rest, basePath.toList = '/' :: rest := ⟨mid ++ ['/'], hmid⟩
  have hsplit : basePath.toList.splitOn '/' = [] :: rest.splitOn '/' := by
    rw [hrest]
    unfold List.splitOn
    rw [List.splitOnP_cons_eq_if_modifyHead, if_pos (by decide)]
  have hclean : ∀ seg ∈ rest.splitOn '/', Url.IsClean seg := by
    intro seg hseg
    obtain ⟨hsingle, hdouble⟩ := h.segments seg (hsplit ▸ List.mem_cons_of_mem _ hseg)
    refine ⟨fun c hc => (h.chars c ?_).1, hsingle, hdouble⟩
    rw [hrest]
    exact List.mem_cons_of_mem _ (Url.subset_of_mem_splitOn hseg hc)
  have hback : '\\' ∉ rest := by
    intro hmem
    exact (h.chars '\\' (hrest ▸ List.mem_cons_of_mem _ hmem)).2 rfl
  rw [hrest, List.drop_one, List.tail_cons]
  exact Url.read_eq_self hback hclean

/-- So behind an address it makes a base URL that reads as written. -/
theorem readsAsWritten_of_isLiteral {addr basePath : String} (haddr : IsAddress addr)
    (hparse : ∃ a, Url.parse addr = .ok a) (hvalid : isValidBasePath basePath = true)
    (h : IsLiteral basePath) : readsAsWritten addr basePath = true := by
  obtain ⟨a, ha⟩ := hparse
  have hbase := parse_append haddr (isPath_of_isLiteral hvalid h)
  rw [ha, read_of_isLiteral hvalid h] at hbase
  refine readsAsWritten_iff.2 ⟨_, _, ha, hbase, rfl, ?_⟩
  obtain ⟨mid, hmid⟩ := isValidBasePath_split hvalid
  rw [trimSlashes_of_last hvalid h.last]
  unfold Url.Path.popIfEmpty
  refine if_pos ?_
  rw [hmid, ← List.cons_append, List.getLast?_concat]
  simp

end Peer

end PeerCache
