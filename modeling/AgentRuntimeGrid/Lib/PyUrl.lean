import AgentRuntimeGrid.Lib.PyText
import Mathlib.Data.List.TakeWhile
import Mathlib.Tactic.Common

/-! `urllib.parse.urlparse` on code points: the cleaning, the scheme, the authority and what
follows it. Whether the text between brackets is an address and whether NFKC changes the authority
are left to a parameter. -/
namespace PyUrl

/-- What is left of a URL once the control characters and blanks before it and every tab, CR and
LF are gone. -/
def clean (url : PyStr) : PyStr := (url.dropWhile (· ≤ 32)).filter fun c => c ∉ [9, 13, 10]

/-- `text.partition(c)`; the second part is `none` when `c` is not there. -/
def partition (c : ℕ) : PyStr → PyStr × Option PyStr
  | [] => ([], none)
  | d :: s => if d = c then ([], some s) else (d :: (partition c s).1, (partition c s).2)

def isAsciiAlpha (c : ℕ) : Bool := (65 ≤ c && c ≤ 90) || (97 ≤ c && c ≤ 122)

/-- `scheme_chars`. -/
def isSchemeChar (c : ℕ) : Bool :=
  isAsciiAlpha c || (48 ≤ c && c ≤ 57) || c ∈ [43, 45, 46]

def splitScheme (url : PyStr) : PyStr × PyStr :=
  match partition 58 url with
  | (c :: scheme, some rest) =>
    if isAsciiAlpha c && (c :: scheme).all isSchemeChar then
      ((c :: scheme).map PyText.asciiLower, rest)
    else ([], url)
  | _ => ([], url)

/-- Not one of `/?#`. -/
def isAuthority (c : ℕ) : Bool := c ∉ [47, 63, 35]

/-- `_splitnetloc` after `//`. -/
def splitNetloc : PyStr → PyStr × PyStr
  | 47 :: 47 :: rest => (rest.takeWhile isAuthority, rest.dropWhile isAuthority)
  | url => ([], url)

def netloc (url : PyStr) : PyStr := (splitNetloc (splitScheme (clean url)).2).1

def tail (url : PyStr) : PyStr := (splitNetloc (splitScheme (clean url)).2).2

def usesParams : List PyStr :=
  ["", "ftp", "hdl", "prospero", "http", "https", "shttp", "rtsp", "rtsps", "sip", "sips", "mms",
    "sftp", "tel"].map py

/-- `_splitparams`: the parameters are those of the last segment. -/
def splitParams (url : PyStr) : PyStr × PyStr :=
  let segment := (url.reverse.takeWhile (· ≠ 47)).reverse
  let before := (url.reverse.dropWhile (· ≠ 47)).reverse
  let (name, params) := partition 59 segment
  (before ++ name, params.getD [])

structure ParseResult where
  scheme : PyStr
  netloc : PyStr
  path : PyStr
  params : PyStr
  query : PyStr
  fragment : PyStr
  deriving DecidableEq

def splitTail (scheme netloc url : PyStr) : ParseResult :=
  let (url, fragment) := partition 35 url
  let (url, query) := partition 63 url
  let (path, params) := if scheme ∈ usesParams then splitParams url else (url, [])
  ⟨scheme, netloc, path, params, query.getD [], fragment.getD []⟩

/-- `urlparse(url)`; `none` is a `ValueError`. -/
def urlparse (checkNetloc : PyStr → Bool) (url : PyStr) : Option ParseResult :=
  if decide (91 ∈ netloc url) = decide (93 ∈ netloc url) ∧ checkNetloc (netloc url) then
    some (splitTail (splitScheme (clean url)).1 (netloc url) (tail url))
  else none

namespace ParseResult

/-- `netloc.rpartition("@")`. -/
def userinfo (r : ParseResult) : Option PyStr × PyStr :=
  match partition 64 r.netloc.reverse with
  | (hostinfo, none) => (none, hostinfo.reverse)
  | (hostinfo, some userinfo) => (some userinfo.reverse, hostinfo.reverse)

def username (r : ParseResult) : Option PyStr := r.userinfo.1.map fun u => (partition 58 u).1

def password (r : ParseResult) : Option PyStr := r.userinfo.1.bind fun u => (partition 58 u).2

/-- The host in lower case, up to the zone of an address. -/
def hostname (lower : PyStr → PyStr) (r : ParseResult) : Option PyStr :=
  let hostinfo := r.userinfo.2
  let host := match partition 91 hostinfo with
    | (_, some bracketed) => (partition 93 bracketed).1
    | (_, none) => (partition 58 hostinfo).1
  if host = [] then none
  else
    let zone := match partition 37 host with
      | (_, none) => []
      | (_, some zone) => 37 :: zone
    some (lower (partition 37 host).1 ++ zone)

/-- The host and the credentials are read from the authority alone. -/
theorem userinfo_congr {r r' : ParseResult} (h : r.netloc = r'.netloc) :
    r.userinfo = r'.userinfo := by
  simp only [userinfo, h]

theorem username_congr {r r' : ParseResult} (h : r.netloc = r'.netloc) :
    r.username = r'.username := by
  simp only [username, userinfo_congr h]

theorem password_congr {r r' : ParseResult} (h : r.netloc = r'.netloc) :
    r.password = r'.password := by
  simp only [password, userinfo_congr h]

theorem hostname_congr {r r' : ParseResult} (h : r.netloc = r'.netloc) (lower : PyStr → PyStr) :
    r.hostname lower = r'.hostname lower := by
  simp only [hostname, userinfo_congr h]

theorem hostname_of_netloc_nil {r : ParseResult} (h : r.netloc = []) (lower : PyStr → PyStr) :
    r.hostname lower = none := by
  exact hostname_congr
    (show r.netloc = (⟨[], [], [], [], [], []⟩ : ParseResult).netloc from h) lower

end ParseResult

theorem partition_of_notMem {c : ℕ} {s : PyStr} (h : c ∉ s) : partition c s = (s, none) := by
  induction s with
  | nil => rfl
  | cons d s ih =>
    rw [List.mem_cons, not_or] at h
    simp [partition, Ne.symm h.1, ih h.2]

theorem exists_partition {c : ℕ} {s : PyStr} (h : c ∈ s) :
    ∃ before after, partition c s = (before, some after) := by
  induction s with
  | nil => cases h
  | cons d s ih =>
    by_cases hd : d = c
    · exact ⟨[], s, by simp [partition, hd]⟩
    · obtain ⟨before, after, hs⟩ := ih ((List.mem_cons.mp h).resolve_left (Ne.symm hd))
      exact ⟨d :: before, after, by simp [partition, hd, hs]⟩

theorem partition_append {c : ℕ} {s before after : PyStr}
    (h : partition c s = (before, some after)) (t : PyStr) :
    partition c (s ++ t) = (before, some (after ++ t)) := by
  induction s generalizing before with
  | nil => cases h
  | cons d s ih =>
    unfold partition at h
    split at h
    next hd =>
      cases h
      simp [partition, hd]
    next hd =>
      obtain ⟨rfl, hafter⟩ := Prod.mk.inj h
      simp [partition, hd, ih (Prod.ext rfl hafter)]

/-- Cleaning leaves a plain suffix where it is. -/
theorem clean_append {c : ℕ} (hc : 32 < c) (url t : PyStr) :
    clean (url ++ c :: t) = clean url ++ (c :: t).filter fun c => c ∉ [9, 13, 10] := by
  unfold clean
  induction url with
  | nil =>
    rw [List.nil_append, List.dropWhile_cons_of_neg (by simpa using hc)]
    rfl
  | cons d url ih =>
    by_cases hd : d ≤ 32
    · rw [List.cons_append, List.dropWhile_cons_of_pos (by simpa using hd),
        List.dropWhile_cons_of_pos (by simpa using hd), ih]
    · rw [List.cons_append, List.dropWhile_cons_of_neg (by simpa using hd),
        List.dropWhile_cons_of_neg (by simpa using hd), ← List.cons_append, List.filter_append]

/-- A scheme stays the scheme whatever is put behind the URL. -/
theorem splitScheme_append {url t : PyStr} (h : (splitScheme (url ++ t)).1 ≠ []) (hcolon : 58 ∉ t) :
    ∃ rest, ∀ u, splitScheme (url ++ u) = ((splitScheme (url ++ t)).1, rest ++ u) := by
  have hmem : 58 ∈ url := by
    by_contra hmem
    have hnone := partition_of_notMem (c := 58) (s := url ++ t) (by simp [hmem, hcolon])
    simp [splitScheme, hnone] at h
  obtain ⟨before, after, hpart⟩ := exists_partition hmem
  refine ⟨after, fun u => ?_⟩
  have ht := partition_append hpart t
  have hu := partition_append hpart u
  cases before with
  | nil => simp [splitScheme, ht] at h
  | cons c scheme =>
    simp only [splitScheme, ht, hu] at h ⊢
    split at h
    next hscheme => simp only [hscheme, if_true]
    next => exact absurd rfl h

/-- A prefix ends where it did when what is put behind the text would end it too. -/
theorem span_append {p : ℕ → Bool} {u : PyStr} (hu : ∀ c ∈ u.head?, p c = false) (s : PyStr) :
    (s ++ u).takeWhile p = s.takeWhile p ∧ (s ++ u).dropWhile p = s.dropWhile p ++ u := by
  induction s with
  | nil =>
    cases u with
    | nil => exact ⟨rfl, rfl⟩
    | cons c u => simp [hu c rfl]
  | cons d s ih =>
    cases hd : p d with
    | true => simp [hd, ih]
    | false => simp [hd]

theorem splitNetloc_slashes {s : PyStr} (hs : ∀ c ∈ s, c = 47) : (splitNetloc s).1 = [] := by
  unfold splitNetloc
  split
  next rest =>
    cases rest with
    | nil => rfl
    | cons c rest =>
      obtain rfl := hs c (by simp)
      rfl
  next => rfl

/-- An authority stays the authority whatever text with a slash in front is put behind the URL in
place of slashes. -/
theorem splitNetloc_append {url t : PyStr} (h : (splitNetloc (url ++ t)).1 ≠ [])
    (ht : ∀ c ∈ t, c = 47) :
    ∃ rest, ∀ u : PyStr, (∀ c ∈ u.head?, c = 47) →
      splitNetloc (url ++ u) = ((splitNetloc (url ++ t)).1, rest ++ u) := by
  have hstop : ∀ u : PyStr, (∀ c ∈ u.head?, c = 47) → ∀ c ∈ u.head?, isAuthority c = false := by
    intro u hu c hc
    rw [hu c hc]
    rfl
  have hslashes : ∀ s : PyStr, (∀ c ∈ s, c = 47) → (splitNetloc (s ++ t)).1 = [] :=
    fun s hs => splitNetloc_slashes fun c hc => (List.mem_append.mp hc).elim (hs c) (ht c)
  match url with
  | [] => exact absurd (hslashes [] (by simp)) h
  | [a] =>
    by_cases ha : a = 47
    · exact absurd (hslashes [a] (by simp [ha])) h
    · simp [splitNetloc, ha] at h
  | a :: b :: rest =>
    by_cases hab : a = 47 ∧ b = 47
    · obtain ⟨rfl, rfl⟩ := hab
      have htail : ∀ c ∈ t.head?, c = 47 := fun c hc => ht c (List.mem_of_mem_head? hc)
      refine ⟨rest.dropWhile isAuthority, fun u hu => ?_⟩
      simp only [splitNetloc, List.cons_append, span_append (hstop u hu),
        span_append (hstop t htail)]
    · exfalso
      apply h
      unfold splitNetloc
      split
      next heq =>
        obtain ⟨rfl, rfl, -⟩ : a = 47 ∧ b = 47 ∧ _ := by simpa using heq
        exact (hab ⟨rfl, rfl⟩).elim
      next => rfl

/-- What is put behind a URL after an authority, itself or in place of slashes, is put behind what
follows the authority. -/
theorem append_of_netloc {url t : PyStr} (ht : ∀ c ∈ t, c = 47)
    (hscheme : (splitScheme (clean (url ++ t))).1 ≠ []) (hnetloc : netloc (url ++ t) ≠ []) :
    ∃ rest, ∀ u : PyStr, (∀ c ∈ u.head?, c = 47) → (∀ c ∈ u, c ∉ [9, 13, 10]) →
      (splitScheme (clean (url ++ u))).1 = (splitScheme (clean (url ++ t))).1 ∧
      netloc (url ++ u) = netloc (url ++ t) ∧ tail (url ++ u) = rest ++ u := by
  have hclean : ∀ u : PyStr, (∀ c ∈ u.head?, c = 47) → (∀ c ∈ u, c ∉ [9, 13, 10]) →
      clean (url ++ u) = clean url ++ u := by
    intro u hu hplain
    cases u with
    | nil => rw [List.append_nil, List.append_nil]
    | cons c u =>
      obtain rfl := hu c rfl
      rw [clean_append (by decide),
        List.filter_eq_self.mpr fun c hc => decide_eq_true (hplain c hc)]
  have htail : clean (url ++ t) = clean url ++ t :=
    hclean t (fun c hc => ht c (List.mem_of_mem_head? hc)) (fun c hc => by rw [ht c hc]; decide)
  rw [htail] at hscheme
  obtain ⟨afterScheme, hafter⟩ := splitScheme_append hscheme
    (fun h58 => absurd (ht 58 h58) (by decide))
  rw [netloc, htail, hafter] at hnetloc
  obtain ⟨rest, hrest⟩ := splitNetloc_append hnetloc ht
  refine ⟨rest, fun u hu hplain => ?_⟩
  rw [netloc, netloc, tail, htail, hclean u hu hplain, hafter, hafter, hrest u hu]
  exact ⟨rfl, rfl, rfl⟩

/-- No parameters are split off when the last segment has no semicolon. -/
theorem splitParams_append {w : PyStr} (hw : 59 ∉ w) (url : PyStr) :
    splitParams (url ++ 47 :: w) = (url ++ 47 :: w, []) := by
  have hreverse : (url ++ 47 :: w).reverse = w.reverse ++ 47 :: url.reverse := by simp
  have hsegment : 59 ∉ ((url ++ 47 :: w).reverse.takeWhile (· ≠ 47)).reverse := by
    rw [hreverse, List.mem_reverse, List.takeWhile_append]
    split
    · simpa using hw
    · exact fun hmem => hw (List.mem_reverse.mp ((List.takeWhile_sublist _).mem hmem))
  simp only [splitParams, partition_of_notMem hsegment, Option.getD_none]
  rw [← List.reverse_append, List.takeWhile_append_dropWhile, List.reverse_reverse]

/-- A plain last segment is the whole path exactly when nothing stood before it. -/
theorem splitTail_append {scheme netloc w : PyStr} (hscheme : scheme ∈ usesParams)
    (hw : ∀ c ∈ w, c ∉ [59, 63, 35]) (url : PyStr) :
    let r := splitTail scheme netloc (url ++ 47 :: w)
    r.path = 47 :: w ∧ r.params = [] ∧ r.query = [] ∧ r.fragment = [] ↔ url = [] := by
  have hnone : ∀ c ∈ [59, 63, 35], c ∉ 47 :: w := by
    intro c hc hmem
    rcases List.mem_cons.mp hmem with rfl | hmem
    · simp at hc
    · exact hw c hmem hc
  by_cases hfragment : 35 ∈ url
  · obtain ⟨before, after, hpart⟩ := exists_partition hfragment
    simp [splitTail, partition_append hpart, List.ne_nil_of_mem hfragment]
  by_cases hquery : 63 ∈ url
  · obtain ⟨before, after, hpart⟩ := exists_partition hquery
    have hplain := partition_of_notMem (c := 35) (s := url ++ 47 :: w) fun hmem =>
      (List.mem_append.mp hmem).elim hfragment (hnone 35 (by simp))
    simp [splitTail, hplain, partition_append hpart, List.ne_nil_of_mem hquery]
  · have hplain := partition_of_notMem (c := 35) (s := url ++ 47 :: w) fun hmem =>
      (List.mem_append.mp hmem).elim hfragment (hnone 35 (by simp))
    have hplain' := partition_of_notMem (c := 63) (s := url ++ 47 :: w) fun hmem =>
      (List.mem_append.mp hmem).elim hquery (hnone 63 (by simp))
    have hparams := splitParams_append (fun hmem => hw 59 hmem (by simp)) url (w := w)
    simp [splitTail, hplain, hplain', hscheme, hparams]

@[simp] theorem scheme_splitTail (scheme netloc url : PyStr) :
    (splitTail scheme netloc url).scheme = scheme := rfl

@[simp] theorem netloc_splitTail (scheme netloc url : PyStr) :
    (splitTail scheme netloc url).netloc = netloc := rfl

theorem path_splitTail_slashes {scheme netloc s : PyStr} (hs : ∀ c ∈ s, c = 47) :
    (splitTail scheme netloc s).path = s := by
  have hnone : ∀ c ≠ 47, c ∉ s := fun c hc hmem => hc (hs c hmem)
  have hparams : splitParams s = (s, []) := by
    rcases List.eq_nil_or_concat s with rfl | ⟨before, c, rfl⟩
    · rfl
    · obtain rfl := hs c (by simp)
      rw [List.concat_eq_append]
      exact splitParams_append (by simp) before
  simp [splitTail, partition_of_notMem (hnone 35 (by decide)),
    partition_of_notMem (hnone 63 (by decide)), hparams]

end PyUrl
