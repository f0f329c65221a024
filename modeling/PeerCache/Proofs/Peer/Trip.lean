import PeerCache.Cluster.History
import PeerCache.Proofs.Url.Scheme
/-!
# PeerCache — the way of a question

From the group and the key of a load to the group and the key that the asked node reads off the
request.

* **`route_text_eq_value_iff`** — the peer endpoint serves exactly the paths that continue its base
  path by a group and a key.
* **`path_parse`** — what a request target keeps of a URL's path.
* **`request_spec`** — the path of the URL that is asked: the base URL's with two segments more.
* **`asked_of_path`** — all of these together. The slashes are counted: three have to stand in front
  of the key, and only a group and a key that are written out bring the second and the third.
* **`asked_eq_iff`** — what is read off is what was asked for exactly if both are `Plain`.
-/

namespace PeerCache

open Text
open Url (utf8_ofList_append)

namespace Peer

/-- What is left after a front is what has to follow it to make the whole. -/
theorem after?_eq_some {α : Type} [DecidableEq α] {xs ys rest : List α} :
    after? xs ys = some rest ↔ ys = xs ++ rest := by
  induction xs generalizing ys with
  | nil => simp [after?, eq_comm]
  | cons x xs ih =>
    cases ys with
    | nil => simp [after?]
    | cons y ys =>
      unfold after?
      by_cases hxy : x = y
      · subst hxy
        rw [if_pos rfl, ih]
        simp
      · rw [if_neg hxy]
        constructor
        · intro h
          cases h
        · intro h
          exact absurd (List.cons.inj h).1.symm hxy

/-! ## The endpoint -/

/-- A rest splits at its first slash, with something behind it. -/
theorem split?_eq_some {rest group key : List UInt8} :
    Route.split? rest = some (group, key) ↔
      rest = group ++ 0x2F :: key ∧ (0x2F : UInt8) ∉ group ∧ key ≠ [] := by
  have hslash : ∀ {xs : List UInt8}, (0x2F : UInt8) ∉ xs → ∀ b ∈ xs, decide (b = 0x2F) = false := by
    intro xs hxs b hb
    rw [decide_eq_false_iff_not]
    rintro rfl
    exact hxs hb
  unfold Route.split?
  constructor
  · intro h
    split at h
    next g b k hcut =>
      split at h
      next => cases h
      next hk =>
        cases h
        have hpair := Url.cutAt_fst_append_snd (fun b => decide (b = (0x2F : UInt8))) rest
        rw [hcut] at hpair
        -- The cut is at the first slash: none before it, and one right behind.
        have htake : rest.takeWhile (fun b => !decide (b = (0x2F : UInt8))) = group :=
          congrArg Prod.fst hcut
        have hdrop : rest.dropWhile (fun b => !decide (b = (0x2F : UInt8))) = b :: key :=
          congrArg Prod.snd hcut
        have hhead := List.head?_dropWhile_not (fun b => !decide (b = (0x2F : UInt8))) rest
        rw [hdrop] at hhead
        have hb : b = 0x2F := by simpa using hhead
        refine ⟨by rw [← hpair, hb], ?_, hk⟩
        intro hmem
        rw [← htake] at hmem
        have hno := List.mem_takeWhile_imp hmem
        simp at hno
    next => cases h
  · rintro ⟨rfl, hgroup, hkey⟩
    rw [Url.cutAt_append (hslash hgroup) (decide_eq_true rfl)]
    simp only [if_neg hkey]

/-- Two parts are a group and a key exactly if both decode to texts. -/
theorem ofParts_pair {g k : List UInt8} {group key : String} :
    Route.ofParts [("group", g), ("key", k)] = .value group key ↔
      utf8? (Percent.decode g) = some group ∧ utf8? (Percent.decode k) = some key := by
  unfold Route.ofParts
  simp only [Route.decodeAll]
  cases hg : utf8? (Percent.decode g) with
  | none => simp
  | some g' =>
    cases hk : utf8? (Percent.decode k) with
    | none => simp [Except.map]
    | some k' => simp [Except.map]

/-- Below a base path, a request is for a group and a key exactly if its method is served and the
rest of its path is the one, a slash and the other, both encoded. -/
theorem below_eq_value_iff {method : String} {rest : List UInt8} {group key : String} :
    Route.below method [] rest = .value group key ↔
      Http.isServed method = true ∧ ∃ g k, rest = g ++ 0x2F :: k ∧
        (0x2F : UInt8) ∉ g ∧ k ≠ [] ∧ utf8? (Percent.decode g) = some group ∧
        utf8? (Percent.decode k) = some key := by
  unfold Route.below
  cases hsplit : Route.split? rest with
  | none =>
    constructor
    · intro h
      cases h
    · rintro ⟨-, g, k, hrest, hg, hk, -⟩
      rw [split?_eq_some.2 ⟨hrest, hg, hk⟩] at hsplit
      cases hsplit
  | some pair =>
    obtain ⟨g, k⟩ := pair
    obtain ⟨rfl, hg, hk⟩ := split?_eq_some.1 hsplit
    show (if Http.isServed method = true then Route.ofParts [("group", g), ("key", k)]
      else Route.methodNotAllowed) = .value group key ↔ _
    by_cases hserved : Http.isServed method = true
    · rw [if_pos hserved, ofParts_pair]
      constructor
      · intro h
        exact ⟨hserved, g, k, rfl, hg, hk, h⟩
      · rintro ⟨-, g', k', hrest, hg', hk', h⟩
        -- The split is unique, so the parts named are the parts cut.
        have hsame := split?_eq_some.2 ⟨hrest, hg', hk'⟩
        rw [hsplit] at hsame
        cases hsame
        exact h
    · rw [if_neg hserved]
      constructor
      · intro h
        cases h
      · rintro ⟨h, -⟩
        exact absurd h hserved

/-- Under a base path without parameters the endpoint serves a value exactly for the paths that
continue the base path by a group without a slash and a key that is not empty, both of which decode
to texts. -/
theorem route_text_eq_value_iff {basePath : String} {bytes : List UInt8}
    (hpieces : pieces basePath = [.text bytes]) {r : Http.Request} {group key : String} :
    Route.ofRequest basePath r = .value group key ↔
      Http.isServed r.method = true ∧ ∃ g k,
        (Http.Target.parse r.target).path = bytes ++ 0x2F :: (g ++ 0x2F :: k) ∧
        (0x2F : UInt8) ∉ g ∧ k ≠ [] ∧ utf8? (Percent.decode g) = some group ∧
        utf8? (Percent.decode k) = some key := by
  unfold Route.ofRequest
  rw [hpieces, capture?_text]
  -- The path must go on behind the base, by a slash and at least one more byte.
  cases hafter : after? bytes (Http.Target.parse r.target).path with
  | none =>
    constructor
    · intro h
      cases h
    · rintro ⟨-, g, k, hpath, -⟩
      rw [after?_eq_some.2 hpath] at hafter
      cases hafter
  | some rest =>
    rw [after?_eq_some] at hafter
    rw [hafter]
    cases rest with
    | nil =>
      constructor
      · intro h
        cases h
      · rintro ⟨-, g, k, hpath, -⟩
        cases List.append_cancel_left hpath
    | cons c rest =>
      show (if c ≠ 0x2F ∨ rest = [] then Route.notFound else Route.below r.method [] rest)
        = .value group key ↔ _
      by_cases hrefused : c ≠ 0x2F ∨ rest = []
      · rw [if_pos hrefused]
        constructor
        · intro h
          cases h
        · rintro ⟨-, g, k, hpath, -, hk, -⟩
          cases List.append_cancel_left hpath
          rcases hrefused with hc | hnil
          · exact absurd rfl hc
          · exact absurd hnil (by simp)
      · have hc : c = 0x2F := by
          by_cases h : c = 0x2F
          · exact h
          · exact absurd (Or.inl h) hrefused
        rw [if_neg hrefused, below_eq_value_iff, hc]
        simp only [List.append_cancel_left_eq, List.cons.injEq, true_and]

/-- Under the default base path, the rest is what stands behind it and one slash. -/
theorem route_eq_value_iff {r : Http.Request} {group key : String} :
    Route.ofRequest defaultBasePath r = .value group key ↔
      Http.isServed r.method = true ∧ ∃ g k,
        (Http.Target.parse r.target).path
          = utf8 "/_distributed_cache" ++ 0x2F :: (g ++ 0x2F :: k) ∧
        (0x2F : UInt8) ∉ g ∧ k ≠ [] ∧ utf8? (Percent.decode g) = some group ∧
        utf8? (Percent.decode k) = some key :=
  route_text_eq_value_iff pieces_defaultBasePath

/-! ## The request -/

/-- Of a request target that starts with a path the path is read, as long as what follows is a
query. -/
theorem path_parse {path rest : List Char} (hslash : path.head? = some '/') (hquestion : '?' ∉ path)
    (hnumber : '#' ∉ path) (hrest : rest = [] ∨ rest.head? = some '?') :
    (Http.Target.parse (String.ofList (path ++ rest))).path = utf8 (String.ofList path) := by
  have hkeep : ∀ (x : Char), x ∉ path → ∀ c ∈ path, decide (c = x) = false := by
    intro x hx c hc
    rw [decide_eq_false_iff_not]
    rintro rfl
    exact hx hc
  -- the fragment goes first; it cannot begin inside the path
  have hfragment : ∃ rest',
      (Url.cutAt (fun c => decide (c = '#')) (path ++ rest)).1 = path ++ rest' ∧
      (rest' = [] ∨ rest'.head? = some '?') := by
    refine ⟨rest.takeWhile (fun c => !decide (c = '#')), ?_, ?_⟩
    · unfold Url.cutAt
      refine List.takeWhile_append_of_pos ?_
      intro c hc
      show (!decide (c = '#')) = true
      rw [hkeep '#' hnumber c hc]
      rfl
    · rcases hrest with rfl | hrest
      · exact Or.inl rfl
      · obtain ⟨c, cs⟩ := rest
        · cases hrest
        · cases hrest
          right
          rw [List.takeWhile_cons_of_pos (by decide)]
          rfl
  obtain ⟨rest', hcut, hrest'⟩ := hfragment
  obtain ⟨tail, rfl⟩ : ∃ tail, path = '/' :: tail := by
    cases path with
    | nil => cases hslash
    | cons c cs =>
      cases hslash
      exact ⟨cs, rfl⟩
  have hpath : Url.cutAt (fun c => decide (c = '?')) ('/' :: tail ++ rest') =
    ('/' :: tail, rest') := by
    rcases hrest' with rfl | hrest'
    · rw [List.append_nil]
      exact Url.cutAt_of_not_mem (hkeep '?' hquestion)
    · obtain ⟨c, cs⟩ := rest'
      · cases hrest'
      · cases hrest'
        exact Url.cutAt_append (hkeep '?' hquestion) (decide_eq_true rfl)
  unfold Http.Target.parse
  rw [String.toList_ofList, hcut]
  simp only [List.cons_append] at hpath ⊢
  rw [hpath]

/-- A path that is all of its target is read back from the request. -/
theorem path_requestOf {url : Url} (hslash : url.path.head? = some '/') (hquestion : '?' ∉ url.path)
    (hnumber : '#' ∉ url.path) :
    (Http.Target.parse (Cluster.requestOf url).target).path = utf8 (String.ofList url.path) := by
  cases hquery : url.query with
  | none =>
    have htarget : (Cluster.requestOf url).target = String.ofList (url.path ++ []) := by
      unfold Cluster.requestOf
      rw [hquery, List.append_nil]
      simp
    rw [htarget]
    exact path_parse hslash hquestion hnumber (Or.inl rfl)
  | some s =>
    have htarget : (Cluster.requestOf url).target =
        String.ofList (url.path ++ '?' :: s.toList) := by
      unfold Cluster.requestOf
      rw [hquery, String.ofList_append, ← String.toList_inj]
      simp
    rw [htarget]
    exact path_parse hslash hquestion hnumber (Or.inr rfl)

theorem kind_of_isSendable {u : Url} (h : isSendable u = true) : u.kind = .web := by
  unfold isSendable at h
  simp only [Bool.and_eq_true, Bool.or_eq_true, decide_eq_true_eq] at h
  unfold Url.kind
  rcases h.1.1 with hscheme | hscheme
  · rw [hscheme]
    decide
  · rw [hscheme]
    decide

/-- The URL of a question is the base URL with the group and the key appended. -/
theorem urlFor_eq_ok_iff {base group key : String} {url : Url} :
    urlFor base group key = .ok url ↔
      ∃ u, Url.parse base = .ok u ∧ u.isOpaque = false ∧
        url = (u.popIfEmpty.push group).push key := by
  unfold urlFor
  -- Two ways to fail: the base does not parse, or its path takes no segments.
  cases hparse : Url.parse base with
  | error e =>
    constructor
    · rintro ⟨⟩
    · rintro ⟨u, ⟨⟩, -⟩
  | ok u =>
    cases hsegments : u.isOpaque with
    | true =>
      simp only [hsegments, if_true]
      constructor
      · rintro ⟨⟩
      · rintro ⟨u', ⟨⟩, hsegments', -⟩
        rw [hsegments] at hsegments'
        cases hsegments'
    | false =>
      simp only [hsegments, Bool.false_eq_true, if_false]
      constructor
      · rintro ⟨⟩
        exact ⟨u, rfl, hsegments, rfl⟩
      · rintro ⟨u', ⟨⟩, -, rfl⟩
        rfl

/-- A question that can be sent goes to the URL for it, or to this one without its user. -/
theorem request_eq_ok {base group key : String} {url : Url}
    (h : request base group key = .ok url) :
    ∃ v, urlFor base group key = .ok v ∧ isSendable url = true ∧
      (url = v ∨ url = v.withoutUserinfo) := by
  unfold request at h
  cases hurl : urlFor base group key with
  | error e =>
    rw [hurl] at h
    cases h
  | ok v =>
    rw [hurl] at h
    have h : (let w := if v.authority.any hasCredentials = true then v.withoutUserinfo else v
        if isSendable w = true then (pure w : Except CacheError Url) else throw (notSendable w))
          = .ok url := h
    generalize hw : (if v.authority.any hasCredentials = true then v.withoutUserinfo else v) = w
      at h
    -- Credentials go into a header, and the URL is then sent without them.
    have hsame : w = v ∨ w = v.withoutUserinfo := by
      rw [← hw]
      split
      · exact Or.inr rfl
      · exact Or.inl rfl
    by_cases hsendable : isSendable w = true
    · simp only [if_pos hsendable] at h
      cases h
      exact ⟨v, rfl, hsendable, hsame⟩
    · simp only [if_neg hsendable] at h
      cases h

/-- A question that can be sent goes to the base URL's path with the group and the key appended. -/
theorem request_spec {base group key : String} {url : Url}
    (h : request base group key = .ok url) :
    ∃ u, Url.parse base = .ok u ∧
      url.path = Url.Path.push .web (Url.Path.push .web (Url.Path.popIfEmpty u.path) group.toList)
        key.toList := by
  obtain ⟨v, hurl, hsendable, hsame⟩ := request_eq_ok h
  obtain ⟨u, hparse, -, rfl⟩ := urlFor_eq_ok_iff.1 hurl
  refine ⟨u, hparse, ?_⟩
  -- what can be sent apart from the URL is neither its path nor its scheme
  have hparts : url.path = ((u.popIfEmpty.push group).push key).path ∧ url.kind = u.kind := by
    rcases hsame with rfl | rfl
    · exact ⟨rfl, rfl⟩
    · exact ⟨rfl, rfl⟩
  have hweb := kind_of_isSendable hsendable
  rw [hparts.2] at hweb
  have hpushed : ((u.popIfEmpty.push group).push key).path
      = Url.Path.push u.kind (Url.Path.push u.kind (Url.Path.popIfEmpty u.path)
        group.toList) key.toList := rfl
  rw [hparts.1, hpushed, hweb]

/-! ## Counting slashes -/

/-- The number of slashes among the bytes of a path. -/
def slashes (path : List Char) : Nat := (utf8 (String.ofList path)).count 0x2F

theorem slashes_append (cs ds : List Char) : slashes (cs ++ ds) = slashes cs + slashes ds := by
  unfold slashes
  rw [utf8_ofList_append, List.count_append]

theorem slashes_mono {cs ds : List Char} (h : cs <+: ds) : slashes cs ≤ slashes ds := by
  obtain ⟨rest, rfl⟩ := h
  rw [slashes_append]
  omega

/-- What is written for a segment has no slash. -/
theorem slashes_written (cs : List Char) : slashes (Url.written cs) = 0 :=
  List.count_eq_zero.2 (Url.slash_not_mem_written cs)

/-- Opening for a segment takes one slash at most. -/
theorem slashes_opened (path : List Char) : slashes (Url.opened path) ≤ slashes path + 1 := by
  unfold Url.opened
  split
  next => omega
  next =>
    rw [slashes_append]
    exact Nat.le_refl _

/-- The path of a base URL under the default base path, without the slash at its end. -/
def root : List Char := "/_distributed_cache".toList

/-- The path of a base URL is the default base path. -/
def AtRoot (baseUrl : String) : Prop :=
  ∀ u, Url.parse baseUrl = .ok u → Url.Path.popIfEmpty u.path = root

theorem slashes_root : slashes root = 1 := by decide

theorem opened_root : Url.opened root = root ++ ['/'] := by decide

/-- What the group leaves behind the base path: its written form, or nothing if it is a dot or two
once its dropped characters are gone. -/
def GroupPart (group g : List Char) : Prop :=
  g = Url.written (Url.kept group) ∨
    g = [] ∧ group ≠ ['.'] ∧ group ≠ ['.', '.'] ∧
      (Url.kept group = ['.'] ∨ Url.kept group = ['.', '.'])

/-- What the group leaves behind the base path has no slash. -/
theorem slashes_groupPart {group g : List Char} (h : GroupPart group g) : slashes g = 0 := by
  rcases h with rfl | ⟨rfl, -⟩
  · exact slashes_written _
  · rfl

/-! ## Where the last slash stands -/

/-- After the group a second slash has come in, or no second one will be there for the key. -/
theorem push_group (group : List Char) :
    slashes (Url.Path.push .web root group) ≤ 1 ∨
      ∃ g, Url.Path.push .web root group = root ++ '/' :: g ∧ GroupPart group g := by
  rcases Url.push_cases root group with ⟨-, h⟩ | ⟨hone, htwo, hkept, r, h, hstart, -⟩ | h
  · rw [h, slashes_root]
    exact Or.inl (Nat.le_refl 1)
  · rw [opened_root] at hstart
    rcases List.prefix_concat_iff.1 hstart with rfl | hstart
    · exact Or.inr ⟨[], h, Or.inr ⟨rfl, hone, htwo, hkept⟩⟩
    · left
      rw [h, ← slashes_root]
      exact slashes_mono hstart
  · right
    refine ⟨Url.written (Url.kept group), ?_, Or.inl rfl⟩
    rw [h, opened_root, List.append_assoc, List.singleton_append]

/-- A path that ends in a slash has one behind any of its slashes that is not the last byte. -/
theorem count_of_ends {path : List Char} {front key : List UInt8}
    (hbytes : utf8 (String.ofList path) = front ++ 0x2F :: key) (hkey : key ≠ [])
    (hends : path.getLast? = some '/') : front.count 0x2F + 2 ≤ slashes path := by
  obtain ⟨init, rfl⟩ := List.getLast?_eq_some_iff.1 hends
  have hslash : utf8 (String.ofList ['/']) = [0x2F] := by decide
  rw [utf8_ofList_append, hslash] at hbytes
  rcases List.eq_nil_or_concat key with hnil | ⟨ks, k, hconcat⟩
  · exact absurd hnil hkey
  · rw [List.concat_eq_append] at hconcat
    rw [hconcat, ← List.cons_append, ← List.append_assoc] at hbytes
    obtain ⟨hinit, -⟩ := List.append_inj' hbytes rfl
    have hcount : slashes (init ++ ['/']) = slashes init + 1 := slashes_append init ['/']
    have hfront : slashes init = front.count 0x2F + (0x2F :: ks).count 0x2F := by
      unfold slashes
      rw [hinit, List.count_append]
    have hcons : (0x2F :: ks).count (0x2F : UInt8) = ks.count 0x2F + 1 := List.count_cons_self
    omega

/-- The bytes on either side of the first slash of a list are determined. -/
theorem eq_of_append_slash {as bs cs ds : List UInt8} (has : (0x2F : UInt8) ∉ as)
    (hcs : (0x2F : UInt8) ∉ cs) (h : as ++ 0x2F :: bs = cs ++ 0x2F :: ds) : as = cs ∧ bs = ds := by
  have hslash : ∀ {xs : List UInt8}, (0x2F : UInt8) ∉ xs → ∀ b ∈ xs, decide (b = 0x2F) = false := by
    intro xs hxs b hb
    rw [decide_eq_false_iff_not]
    rintro rfl
    exact hxs hb
  have hleft : Url.cutAt (fun b => decide (b = (0x2F : UInt8))) (as ++ 0x2F :: bs)
      = (as, 0x2F :: bs) := Url.cutAt_append (hslash has) (decide_eq_true rfl)
  have hright : Url.cutAt (fun b => decide (b = (0x2F : UInt8))) (cs ++ 0x2F :: ds)
      = (cs, 0x2F :: ds) := Url.cutAt_append (hslash hcs) (decide_eq_true rfl)
  rw [h, hright] at hleft
  obtain ⟨rfl, hrest⟩ := Prod.mk.inj hleft
  exact ⟨rfl, (List.cons.inj hrest).2.symm⟩

theorem utf8_cons_slash (cs : List Char) :
    utf8 (String.ofList ('/' :: cs)) = 0x2F :: utf8 (String.ofList cs) :=
  utf8_ofList_append ['/'] cs

/-- The bytes of start, group and key follow one another, with a slash between any two. -/
theorem utf8_parts (start group key : List Char) :
    utf8 (String.ofList (start ++ '/' :: (group ++ '/' :: key))) = utf8 (String.ofList start) ++
      0x2F :: (utf8 (String.ofList group) ++ 0x2F :: utf8 (String.ofList key)) := by
  rw [utf8_ofList_append, utf8_cons_slash, utf8_ofList_append, utf8_cons_slash]

/-- The bytes of a path of the root and two segments more. -/
theorem utf8_opened (g k : List Char) :
    utf8 (String.ofList (Url.opened (root ++ '/' :: g) ++ k)) = utf8 (String.ofList root) ++
      0x2F :: (utf8 (String.ofList g) ++ 0x2F :: utf8 (String.ofList k)) := by
  have hne : root ++ '/' :: g ≠ ['/'] := by
    intro heq
    have hlength := congrArg List.length heq
    rw [List.length_append] at hlength
    simp only [List.length_cons, List.length_nil] at hlength
    have hlong : root.length = 19 := by decide
    omega
  have hopen : Url.opened (root ++ '/' :: g) ++ k = root ++ '/' :: (g ++ '/' :: k) := by
    unfold Url.opened
    rw [if_neg hne, List.append_assoc, List.append_assoc, List.cons_append, List.singleton_append]
  rw [hopen, utf8_parts]

/-- After the key: where the path goes on by a group and a key, both are those that were
appended. -/
theorem push_key {group key : List Char} {g k : List UInt8}
    (hbytes : utf8 (String.ofList (Url.Path.push .web (Url.Path.push .web root group) key))
      = utf8 (String.ofList root) ++ 0x2F :: (g ++ 0x2F :: k))
    (hg : (0x2F : UInt8) ∉ g) (hk : k ≠ []) :
    (∃ g', GroupPart group g' ∧ g = utf8 (String.ofList g')) ∧
      k = utf8 (String.ofList (Url.written (Url.kept key))) := by
  generalize hpath : Url.Path.push .web (Url.Path.push .web root group) key = path at hbytes
  have hroot : (utf8 (String.ofList root)).count 0x2F = 1 := slashes_root
  have hcount : slashes path = 3 + k.count 0x2F := by
    have hzero : g.count 0x2F = 0 := List.count_eq_zero.2 hg
    unfold slashes
    rw [hbytes, List.count_append, List.count_cons_self, List.count_append, List.count_cons_self,
      hroot, hzero]
    omega
  -- at most two slashes come before the key's own
  have hgroup : slashes (Url.Path.push .web root group) ≤ 2 := by
    rcases push_group group with h | ⟨g', h, hpart⟩
    · omega
    · have hcons : root ++ '/' :: g' = (root ++ ['/']) ++ g' := by simp
      have hone : slashes ['/'] = 1 := by decide
      rw [h, hcons, slashes_append, slashes_append, slashes_root, hone, slashes_groupPart hpart]
  have hopened := slashes_opened (Url.Path.push .web root group)
  rcases Url.push_cases (Url.Path.push .web root group) key with
    ⟨-, hskip⟩ | ⟨-, -, -, r, hcut, hstart, hends⟩ | hwritten
  · rw [hpath] at hskip
    rw [hskip] at hcount
    omega
  · rw [hpath] at hcut
    subst hcut
    have hle := slashes_mono hstart
    have hfront : utf8 (String.ofList path)
        = (utf8 (String.ofList root) ++ 0x2F :: g) ++ 0x2F :: k := by
      rw [hbytes, List.append_assoc, List.cons_append]
    have hmore := count_of_ends hfront hk hends
    rw [List.count_append, List.count_cons_self, hroot] at hmore
    omega
  · rw [hpath] at hwritten
    rw [hwritten, slashes_append, slashes_written] at hcount
    rcases push_group group with h | ⟨g', h, hpart⟩
    · omega
    · have hparts : utf8 (String.ofList path) = utf8 (String.ofList root) ++
          0x2F :: (utf8 (String.ofList g')
            ++ 0x2F :: utf8 (String.ofList (Url.written (Url.kept key)))) := by
        rw [hwritten, h]
        exact utf8_opened g' _
      rw [hbytes] at hparts
      have hsame := (List.cons.inj (List.append_cancel_left hparts)).2
      obtain ⟨hgeq, hkeq⟩ := eq_of_append_slash hg
        (List.count_eq_zero.1 (slashes_groupPart hpart)) hsame
      exact ⟨⟨g', hpart, hgeq⟩, hkeq⟩

/-! ## The way there -/

/-- A URL asks a node for what the node's endpoint takes its request for. -/
theorem asked?_eq_some {basePath group key : String} {url : Url} :
    Cluster.asked? basePath url = some (group, key) ↔
      Route.ofRequest basePath (Cluster.requestOf url) = .value group key := by
  unfold Cluster.asked?
  constructor
  · intro h
    split at h
    next g k hroute =>
      cases h
      exact hroute
    next => cases h
  · intro h
    rw [h]

/-- What the asked node reads off a path under the default base path: the key and the group without
their dropped characters, or no group where these leave only a dot or two of it. -/
theorem asked_of_path {group key group' key' : String} {url : Url}
    (hpath : url.path = Url.Path.push .web (Url.Path.push .web root group.toList) key.toList)
    (hasked : Cluster.asked? defaultBasePath url = some (group', key')) :
    key'.toList = Url.kept key.toList ∧
      (group'.toList = Url.kept group.toList ∨
        group' = "" ∧ group.toList ≠ ['.'] ∧ group.toList ≠ ['.', '.'] ∧
          (Url.kept group.toList = ['.'] ∨ Url.kept group.toList = ['.', '.'])) := by
  have hvalue := asked?_eq_some.1 hasked
  -- A push escapes `?` and `#`, so the request's path ends where the URL's does.
  have hfree : ∀ x : Char, x ≠ '/' → (∀ cs, x ∉ Url.written cs) → x ∉ root → x ∉ url.path := by
    intro x hx hwritten hxroot
    rw [hpath]
    exact Url.not_mem_push hx hwritten (Url.not_mem_push hx hwritten hxroot _) _
  have hslash : url.path.head? = some '/' := by
    rw [hpath]
    exact Url.head_push (Url.head_push (by decide) _) _
  have hquestion : '?' ∉ url.path := hfree '?' (by decide)
    (Url.not_mem_encode (Url.segment_question true) Url.question_not_mem_escape) (by decide)
  have hnumber : '#' ∉ url.path := hfree '#' (by decide)
    (Url.not_mem_encode (Url.segment_number true) Url.number_not_mem_escape) (by decide)
  obtain ⟨-, g, k, hbytes, hg, hk, hgroup, hkey⟩ := route_eq_value_iff.1 hvalue
  rw [path_requestOf hslash hquestion hnumber, hpath] at hbytes
  have hbase : utf8 "/_distributed_cache" = utf8 (String.ofList root) := by
    unfold root
    rw [String.ofList_toList]
  rw [hbase] at hbytes
  -- The last slash of the path is the key's, and the one before it the group's.
  obtain ⟨⟨g', hpart, rfl⟩, rfl⟩ := push_key hbytes hg hk
  rw [Url.decode_written, utf8?_utf8] at hkey
  have hkeyEq := Option.some.inj hkey
  refine ⟨by rw [← hkeyEq, String.toList_ofList], ?_⟩
  rcases hpart with rfl | ⟨rfl, hone, htwo, hkept⟩
  · rw [Url.decode_written, utf8?_utf8] at hgroup
    left
    rw [← Option.some.inj hgroup, String.toList_ofList]
  · right
    refine ⟨?_, hone, htwo, hkept⟩
    have hempty : utf8? (Percent.decode (utf8 (String.ofList []))) = some "" := utf8?_utf8 ""
    rw [hempty] at hgroup
    exact (Option.some.inj hgroup).symm

/-- What a peer is asked for is what the question was for, without its dropped characters; of the
group nothing may be left, if these were all that told it from a dot or two. -/
theorem asked_spec {base group key group' key' : String} {url : Url} (hroot : AtRoot base)
    (hrequest : request base group key = .ok url)
    (hasked : Cluster.asked? defaultBasePath url = some (group', key')) :
    key'.toList = Url.kept key.toList ∧
      (group'.toList = Url.kept group.toList ∨
        group' = "" ∧ group.toList ≠ ['.'] ∧ group.toList ≠ ['.', '.'] ∧
          (Url.kept group.toList = ['.'] ∨ Url.kept group.toList = ['.', '.'])) := by
  obtain ⟨u, hparse, hpath⟩ := request_spec hrequest
  rw [hroot u hparse] at hpath
  exact asked_of_path hpath hasked

/-- A text without the characters that a URL drops. -/
def Plain (s : String) : Prop := ∀ c ∈ s.toList, Url.isDropped c = false

instance (s : String) : Decidable (Plain s) :=
  List.decidableBAll (fun c => Url.isDropped c = false) s.toList

/-- Nothing is dropped from a text exactly if it is plain. -/
theorem kept_eq_self_iff {s : String} : Url.kept s.toList = s.toList ↔ Plain s := by
  unfold Url.kept Plain
  rw [List.filter_eq_self]
  simp

/-- Under the default base path a question that is taken for one asks for its own group and key
exactly if neither has a tab, a line feed or a carriage return. -/
theorem asked_eq_iff {base group key group' key' : String} {url : Url} (hroot : AtRoot base)
    (hrequest : request base group key = .ok url)
    (hasked : Cluster.asked? defaultBasePath url = some (group', key')) :
    (group' = group ∧ key' = key) ↔ (Plain group ∧ Plain key) := by
  obtain ⟨hkey, hgroup⟩ := asked_spec hroot hrequest hasked
  constructor
  · rintro ⟨rfl, rfl⟩
    refine ⟨?_, kept_eq_self_iff.1 hkey.symm⟩
    rcases hgroup with hgroup | ⟨rfl, -⟩
    · exact kept_eq_self_iff.1 hgroup.symm
    · intro c hc
      cases hc
  · rintro ⟨hgplain, hkplain⟩
    rw [kept_eq_self_iff.2 hkplain] at hkey
    refine ⟨?_, String.toList_inj.1 hkey⟩
    rcases hgroup with hgroup | ⟨-, hone, htwo, hdots⟩
    · rw [kept_eq_self_iff.2 hgplain] at hgroup
      exact String.toList_inj.1 hgroup
    · rw [kept_eq_self_iff.2 hgplain] at hdots
      rcases hdots with hdots | hdots
      · exact absurd hdots hone
      · exact absurd hdots htwo

end Peer

end PeerCache
