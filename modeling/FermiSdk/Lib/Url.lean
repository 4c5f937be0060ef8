import FermiSdk.Lib.PercentEncoding
import Mathlib.Data.List.DropRight
import Mathlib.Data.List.Infix
import Mathlib.Data.List.TakeWhile

/-!
# What a server is asked for

A server is mounted at a path of an origin. What it receives of a URL below its mount is the segments
of the path and the entries of the query, decoded (`Mount.receive`): the reader cuts the URL at `#`
and `?`, takes a backslash for a slash, and resolves the segments `.` and `..`, also when their dots
are escaped. It never receives such a segment (`segments_of_receive`). So a path of encoded texts is
received as it was written exactly if none of the texts is `.` or `..` (`receive_encoded`).
-/

namespace FermiSdk.Lib.Url

open Percent

/-! ## Texts -/

/-- The bytes of a text. -/
def utf8 (text : String) : List UInt8 := text.toList.flatMap String.utf8EncodeChar

theorem utf8EncodeChar_append_inj {c d : Char} {s t : List UInt8}
    (h : String.utf8EncodeChar c ++ s = String.utf8EncodeChar d ++ t) : c = d := by
  have hc := @ByteArray.utf8DecodeChar?_utf8EncodeChar_append s.toByteArray c
  have hd := @ByteArray.utf8DecodeChar?_utf8EncodeChar_append t.toByteArray d
  rw [← List.toByteArray_append, h, List.toByteArray_append, hd] at hc
  exact (Option.some.inj hc).symm

theorem utf8_injective : Function.Injective utf8 := by
  intro text text' h
  rw [← String.toList_inj]
  unfold utf8 at h
  generalize text.toList = cs, text'.toList = ds at h
  induction cs generalizing ds with
  | nil =>
    cases ds with
    | nil => rfl
    | cons d ds =>
      rw [List.flatMap_nil, List.flatMap_cons] at h
      exact absurd (List.append_eq_nil_iff.1 h.symm).1 String.utf8EncodeChar_ne_nil
  | cons c cs ih =>
    cases ds with
    | nil =>
      rw [List.flatMap_nil, List.flatMap_cons] at h
      exact absurd (List.append_eq_nil_iff.1 h).1 String.utf8EncodeChar_ne_nil
    | cons d ds =>
      rw [List.flatMap_cons, List.flatMap_cons] at h
      obtain rfl := utf8EncodeChar_append_inj h
      rw [ih ds (List.append_cancel_left h)]

/-! ## Paths -/

/-- The bytes that separate the parts of a URL. -/
def slash : UInt8 := 47
def backslash : UInt8 := 92
def question : UInt8 := 63
def hash : UInt8 := 35

/-- The bytes that end a segment. -/
def separators : List UInt8 := [slash, backslash, question, hash]

/-- `.` and `..`, by their bytes. -/
def dots : List (List UInt8) := [[46], [46, 46]]

/-- A path, each segment after a slash. -/
def pathText (segments : List (List UInt8)) : List UInt8 := segments.flatMap (slash :: ·)

/-- The segments of a path, after its first slash. -/
def splitPath (path : List UInt8) : List (List UInt8) :=
  ((path.map fun b => if b = backslash then slash else b).splitOn slash).drop 1

/-- The segments, with those before already resolved: `.` is dropped, `..` takes the one before it
along, and either leaves an empty segment at the end of a path. -/
def resolveDots (before : List (List UInt8)) : List (List UInt8) → List (List UInt8)
  | [] => before
  | segment :: rest =>
    let last := if rest = [] then [[]] else []
    if decode segment = [46, 46] then resolveDots (before.dropLast ++ last) rest
    else if decode segment = [46] then resolveDots (before ++ last) rest
    else resolveDots (before ++ [segment]) rest

variable {segments before : List (List UInt8)}

theorem resolveDots_eq (h : ∀ segment ∈ segments, decode segment ∉ dots) :
    resolveDots before segments = before ++ segments := by
  induction segments generalizing before with
  | nil => exact (List.append_nil before).symm
  | cons segment rest ih =>
    have hsegment := h segment List.mem_cons_self
    simp only [dots, List.mem_cons, List.not_mem_nil, or_false, not_or] at hsegment
    rw [resolveDots, if_neg hsegment.2, if_neg hsegment.1,
      ih fun s hs => h s (List.mem_cons_of_mem _ hs), List.append_assoc, List.singleton_append]

/-- **No dots are left.** -/
theorem resolveDots_notMem (h : ∀ segment ∈ before, decode segment ∉ dots) :
    ∀ segment ∈ resolveDots before segments, decode segment ∉ dots := by
  induction segments generalizing before with
  | nil => exact h
  | cons segment rest ih =>
    have hlast : ∀ s ∈ if rest = [] then [[]] else ([] : List (List UInt8)), decode s ∉ dots := by
      intro s hs
      split at hs
      · rw [List.mem_singleton.1 hs]
        decide
      · exact absurd hs List.not_mem_nil
    unfold resolveDots
    dsimp only
    split
    · refine ih fun s hs => ?_
      rcases List.mem_append.1 hs with hs | hs
      · exact h s ((List.mem_of_mem_dropLast hs))
      · exact hlast s hs
    · next hdouble =>
      split
      · refine ih fun s hs => ?_
        rcases List.mem_append.1 hs with hs | hs
        · exact h s hs
        · exact hlast s hs
      · next hsingle =>
        refine ih fun s hs => ?_
        rcases List.mem_append.1 hs with hs | hs
        · exact h s hs
        · rw [List.mem_singleton.1 hs]
          simp only [dots, List.mem_cons, List.not_mem_nil, or_false, not_or]
          exact ⟨hsingle, hdouble⟩

theorem forall_separators {p : UInt8 → Prop} :
    (∀ b ∈ separators, p b) ↔ p slash ∧ p backslash ∧ p question ∧ p hash := by
  simp only [separators, List.forall_mem_cons, List.not_mem_nil, false_imp_iff, implies_true,
    and_true]

/-- A segment is plain if none of the separators is in it. -/
theorem plain_iff {segment : List UInt8} : (∀ b ∈ segment, b ∉ separators) ↔
    slash ∉ segment ∧ backslash ∉ segment ∧ question ∉ segment ∧ hash ∉ segment := by
  rw [← @forall_separators (· ∉ segment)]
  exact ⟨fun h b hb hmem => h b hmem hb, fun h b hb hmem => h b hmem hb⟩

theorem not_escape_of_separator : ∀ b ∈ separators, isHexDigit b = false ∧ b ≠ percent :=
  forall_separators.2 ⟨⟨rfl, by decide⟩, ⟨rfl, by decide⟩, ⟨rfl, by decide⟩, ⟨rfl, by decide⟩⟩

/-- The bytes of a path are those of its segments, and slashes. -/
theorem mem_pathText {b : UInt8} (h : b ∈ pathText segments) :
    b = slash ∨ ∃ segment ∈ segments, b ∈ segment := by
  obtain ⟨segment, hsegment, hb⟩ := List.mem_flatMap.1 h
  rcases List.mem_cons.1 hb with rfl | hb
  · exact .inl rfl
  · exact .inr ⟨segment, hsegment, hb⟩

theorem intercalate_slash {first : List UInt8} :
    [slash].intercalate (first :: segments) = first ++ pathText segments := by
  induction segments generalizing first with
  | nil => rw [List.intercalate_singleton, pathText, List.flatMap_nil, List.append_nil]
  | cons segment rest ih =>
    rw [List.intercalate_cons_cons, ih, List.append_assoc]
    rfl

theorem splitPath_pathText (h : ∀ segment ∈ segments, ∀ b ∈ segment, b ∉ separators) :
    splitPath (pathText segments) = segments := by
  have hmap : (pathText segments).map (fun b => if b = backslash then slash else b) =
      pathText segments := by
    conv_rhs => rw [← List.map_id (pathText segments)]
    refine List.map_congr_left fun b hb => if_neg ?_
    rintro rfl
    rcases mem_pathText hb with hb | ⟨segment, hsegment, hb⟩
    · exact absurd hb (by decide)
    · exact h segment hsegment backslash hb (by decide)
  have hslash : ∀ segment ∈ [] :: segments, slash ∉ segment := by
    intro segment hsegment hmem
    rcases List.mem_cons.1 hsegment with rfl | hsegment
    · exact absurd hmem List.not_mem_nil
    · exact h segment hsegment slash hmem (by decide)
  rw [splitPath, hmap, ← List.nil_append (pathText segments), ← intercalate_slash,
    List.splitOn_intercalate slash hslash (List.cons_ne_nil _ _)]
  rfl

/-! ## Servers -/

/-- Where a server is mounted: under an origin, the scheme and authority of its URLs, at a path. -/
structure Mount where
  origin : List UInt8
  path : List (List UInt8)
  origin_end : ∃ b ∈ origin.getLast?, b ≠ slash
  nonempty : ∀ segment ∈ path, segment ≠ []
  plain : ∀ segment ∈ path, ∀ b ∈ segment, b ∉ separators
  undotted : ∀ segment ∈ path, decode segment ∉ dots

/-- What a server is asked for. -/
structure Target where
  segments : List (List UInt8)
  query : List (List UInt8 × List UInt8)
  deriving DecidableEq

namespace Mount

variable (mount : Mount)

/-- The URL of the mount. -/
def url : List UInt8 := mount.origin ++ pathText mount.path

/-- The URL of a mount does not end with a slash. -/
theorem exists_url_eq : ∃ init b, mount.url = init ++ [b] ∧ b ≠ slash := by
  rcases List.eq_nil_or_concat' mount.path with hpath | ⟨before, last, hpath⟩
  · obtain ⟨b, hb, hne⟩ := mount.origin_end
    refine ⟨mount.origin.dropLast, b, ?_, hne⟩
    rw [url, hpath, pathText, List.flatMap_nil, List.append_nil]
    exact (List.dropLast_append_getLast? b hb).symm
  · have hmem : last ∈ mount.path := by
      rw [hpath]
      exact List.mem_append_right _ List.mem_cons_self
    rcases List.eq_nil_or_concat' last with rfl | ⟨init, b, rfl⟩
    · exact absurd rfl (mount.nonempty [] hmem)
    · refine ⟨mount.origin ++ pathText before ++ slash :: init, b, ?_, ?_⟩
      · rw [url, hpath, pathText, pathText, List.flatMap_append, List.flatMap_singleton]
        simp
      · rintro rfl
        exact mount.plain _ hmem slash (List.mem_append_right _ List.mem_cons_self) (by decide)

/-- Slashes after the URL of a mount are dropped. -/
theorem rdropWhile_url (slashes : Nat) :
    (mount.url ++ List.replicate slashes slash).rdropWhile (· = slash) = mount.url := by
  obtain ⟨init, b, hurl, hb⟩ := mount.exists_url_eq
  induction slashes with
  | zero =>
    rw [List.replicate_zero, List.append_nil, hurl]
    exact List.rdropWhile_concat_neg _ init b (by simpa using hb)
  | succ slashes ih =>
    rw [List.replicate_succ', ← List.append_assoc, List.rdropWhile_concat_pos _ _ _ (by simp), ih]

/-- What the server receives of a URL, if the URL is one of its own. -/
def receive (url : List UInt8) : Option Target :=
  if mount.origin <+: url then
    let rest := (url.drop mount.origin.length).takeWhile (· ≠ hash)
    let segments := resolveDots [] (splitPath (rest.takeWhile (· ≠ question)))
    if mount.path <+: segments then
      some {
        segments := (segments.drop mount.path.length).map decode
        query := parseForm ((rest.dropWhile (· ≠ question)).drop 1) }
    else none
  else none

variable {mount}

/-- **No dots are received.** -/
theorem segments_of_receive {url : List UInt8} {target : Target}
    (h : mount.receive url = some target) : ∀ segment ∈ target.segments, segment ∉ dots := by
  unfold receive at h
  split at h
  · dsimp only at h
    split at h
    · cases h
      intro segment hsegment
      obtain ⟨raw, hraw, rfl⟩ := List.mem_map.1 hsegment
      exact resolveDots_notMem (fun s hs => absurd hs List.not_mem_nil) raw
        (List.mem_of_mem_drop hraw)
    · cases h
  · cases h

/-- A query, after its `?`, or nothing. -/
def queryText : List (List UInt8 × List UInt8) → List UInt8
  | [] => []
  | entry :: entries => question :: serializeForm (entry :: entries)

theorem parseForm_queryText (entries : List (List UInt8 × List UInt8)) :
    parseForm ((queryText entries).drop 1) = entries := by
  cases entries with
  | nil => rfl
  | cons entry entries => exact parseForm_serializeForm (entry :: entries)

/-- What is received of a path without dots, before a query or nothing. -/
theorem receive_path {tail : List UInt8}
    (hplain : ∀ segment ∈ segments, ∀ b ∈ segment, b ∉ separators)
    (hdots : ∀ segment ∈ segments, decode segment ∉ dots)
    (htail : tail = [] ∨ tail.head? = some question) (hhash : hash ∉ tail) :
    mount.receive (mount.url ++ pathText segments ++ tail) =
      some ⟨segments.map decode, parseForm (tail.drop 1)⟩ := by
  have hall : ∀ segment ∈ mount.path ++ segments,
      (∀ b ∈ segment, b ∉ separators) ∧ decode segment ∉ dots := by
    intro segment hsegment
    rcases List.mem_append.1 hsegment with h | h
    · exact ⟨mount.plain segment h, mount.undotted segment h⟩
    · exact ⟨hplain segment h, hdots segment h⟩
  have hpath : ∀ b ∈ pathText (mount.path ++ segments), b ≠ question ∧ b ≠ hash := by
    intro b hb
    rcases mem_pathText hb with rfl | ⟨segment, hsegment, hb⟩
    · decide
    · have hnot := (hall segment hsegment).1 b hb
      simp only [separators, List.mem_cons, List.not_mem_nil, or_false, not_or] at hnot
      exact hnot.2.2
  have hurl : mount.url ++ pathText segments ++ tail =
      mount.origin ++ (pathText (mount.path ++ segments) ++ tail) := by
    rw [url, pathText, pathText, pathText, List.flatMap_append]
    simp only [List.append_assoc]
  have htake : (pathText (mount.path ++ segments) ++ tail).takeWhile (· ≠ hash) =
      pathText (mount.path ++ segments) ++ tail := by
    rw [List.takeWhile_eq_self_iff]
    intro b hb
    rw [decide_eq_true_eq]
    rcases List.mem_append.1 hb with hb | hb
    · exact (hpath b hb).2
    · rintro rfl
      exact hhash hb
  have hbefore : ∀ b ∈ pathText (mount.path ++ segments), decide (b ≠ question) = true :=
    fun b hb => decide_eq_true (hpath b hb).1
  have hcut : tail.takeWhile (· ≠ question) = [] ∧ tail.dropWhile (· ≠ question) = tail := by
    rcases htail with rfl | hhead
    · exact ⟨rfl, rfl⟩
    · obtain ⟨rest, rfl⟩ := List.head?_eq_some_iff.1 hhead
      exact ⟨rfl, rfl⟩
  rw [receive, hurl, if_pos (List.prefix_append _ _)]
  dsimp only
  rw [List.drop_left, htake, List.takeWhile_append_of_pos hbefore, hcut.1,
    List.append_nil, List.dropWhile_append_of_pos hbefore, hcut.2,
    splitPath_pathText fun s hs => (hall s hs).1, resolveDots_eq fun s hs => (hall s hs).2,
    List.nil_append, if_pos (List.prefix_append _ _), List.drop_left]

/-- What is received of a path without dots, and of a form. -/
theorem receive_pathText {entries : List (List UInt8 × List UInt8)}
    (hplain : ∀ segment ∈ segments, ∀ b ∈ segment, b ∉ separators)
    (hdots : ∀ segment ∈ segments, decode segment ∉ dots) :
    mount.receive (mount.url ++ pathText segments ++ queryText entries) =
      some ⟨segments.map decode, entries⟩ := by
  have hhash : hash ∉ queryText entries := by
    cases entries with
    | nil => exact List.not_mem_nil
    | cons entry entries =>
      intro h
      rcases List.mem_cons.1 h with h | h
      · exact absurd h (by decide)
      · exact notMem_serializeForm _ rfl rfl (by decide) h
  have hhead : queryText entries = [] ∨ (queryText entries).head? = some question := by
    cases entries with
    | nil => exact .inl rfl
    | cons entry entries => exact .inr rfl
  rw [receive_path hplain hdots hhead hhash, parseForm_queryText]

/-- **A path of encoded texts is received as it was written, exactly if no text is made of one or
two dots.** -/
theorem receive_encoded {safe : UInt8 → Bool} {texts : List (List UInt8)}
    {entries : List (List UInt8 × List UInt8)} (hpercent : safe percent = false)
    (hsafe : ∀ b ∈ separators, safe b = false) :
    mount.receive (mount.url ++ pathText (texts.map (encode safe)) ++ queryText entries) =
      some ⟨texts, entries⟩ ↔ ∀ text ∈ texts, text ∉ dots := by
  constructor
  · intro h
    exact segments_of_receive h
  · intro h
    have hdecode : (texts.map (encode safe)).map decode = texts := by
      rw [List.map_map]
      conv_rhs => rw [← List.map_id texts]
      exact List.map_congr_left fun text _ => decode_encode hpercent
    have hplain : ∀ segment ∈ texts.map (encode safe), ∀ b ∈ segment, b ∉ separators := by
      intro segment hsegment b hb hseparator
      obtain ⟨text, -, rfl⟩ := List.mem_map.1 hsegment
      have hdigit := not_escape_of_separator b hseparator
      exact notMem_encode (hsafe b hseparator) hdigit.2 hdigit.1 hb
    rw [receive_pathText hplain, hdecode]
    intro segment hsegment
    obtain ⟨text, htext, rfl⟩ := List.mem_map.1 hsegment
    rw [decode_encode hpercent]
    exact h text htext

end Mount

end FermiSdk.Lib.Url
