import AgentRuntimeGrid.Jobs.GdevAgent
import AgentRuntimeGrid.Lib.Digits
import AgentRuntimeGrid.Lib.PyUrl

/-! The one URL a job in local mode requests, read back by the parser that checked its base. -/
namespace AgentRuntimeGrid.GdevAgent

def localGdevHosts : List PyStr := [py "localhost", py "127.0.0.1", py "::1"]

/-- The attributes of a parsed URL the check reads. -/
def urlParts (env : RunnerEnv) (r : PyUrl.ParseResult) : UrlParts where
  scheme := r.scheme
  hostname := r.hostname env.lower
  username := r.username
  password := r.password
  path := r.path

/-- The library with `urlparse` as documented. -/
def withUrlparse (env : RunnerEnv) (checkNetloc : PyStr → Bool) : RunnerEnv :=
  { env with urlparse := fun url => (PyUrl.urlparse checkNetloc url).map (urlParts env) }

/-- `<loopback>[:port]`, where an address is in brackets and the port is a decimal number. -/
def LoopbackAuthority (lower : PyStr → PyStr) (netloc : PyStr) : Prop :=
  ∃ host port, netloc = host ++ port ∧
    lower host ∈ [py "localhost", py "127.0.0.1", py "[::1]"] ∧
    (port = [] ∨ ∃ digits, port = 58 :: digits ∧ digits.all PyText.isDigit = true ∧
      PyText.ofDigits digits ≤ 65535)

/-- `http://<loopback>[:port]/webhook`. -/
structure LocalWebhook (env : RunnerEnv) (r : PyUrl.ParseResult) : Prop where
  scheme : r.scheme = py "http"
  authority : LoopbackAuthority env.lower r.netloc
  hostname : ∃ host ∈ localGdevHosts, r.hostname env.lower = some host
  username : r.username.getD [] = []
  password : r.password.getD [] = []
  path : r.path = py "/webhook"
  params : r.params = []
  query : r.query = []
  fragment : r.fragment = []

/-- The request of a job goes to the webhook of its base URL, if it makes one. -/
theorem invokeLocalGdev_congr {env : RunnerEnv} {ctx ctx' : RunContext}
    {p : GdevWebhookEvalPayload} (hgetenv : ctx.getenv = ctx'.getenv)
    (h : ∀ baseUrl, p.gdevBaseUrl = some baseUrl →
      ctx.urlopen (baseUrl ++ py "/webhook") = ctx'.urlopen (baseUrl ++ py "/webhook")) :
    invokeLocalGdev env ctx p = invokeLocalGdev env ctx' p := by
  cases hbase : p.gdevBaseUrl with
  | none => simp only [invokeLocalGdev, hbase]
  | some baseUrl =>
    simp only [invokeLocalGdev, webhookSecretFromEnv, hbase, hgetenv, h baseUrl hbase]

/-- What is stripped from the end of a base URL. -/
theorem rstrip_slashes (value : PyStr) : ∃ slashes,
    value = (value.reverse.dropWhile (· = 47)).reverse ++ slashes ∧ (∀ c ∈ slashes, c = 47) ∧
    (slashes = [] ↔ value.getLast? ≠ some 47) := by
  refine ⟨(value.reverse.takeWhile (· = 47)).reverse, ?_, ?_, ?_⟩
  · rw [← List.reverse_append, List.takeWhile_append_dropWhile, List.reverse_reverse]
  · intro c hc
    simpa using List.mem_takeWhile_imp (List.mem_reverse.mp hc)
  · rw [List.reverse_eq_nil_iff, ← List.head?_reverse]
    cases value.reverse with
    | nil => simp
    | cons c s => by_cases hc : c = 47 <;> simp [hc]

/-- A base URL that was accepted is a URL of a local host, without its last slashes. -/
theorem validateLocalBaseUrl_spec {env : RunnerEnv} {checkNetloc : PyStr → Bool}
    {value base : PyStr}
    (h : validateLocalBaseUrl (withUrlparse env checkNetloc) value = .ok base) :
    ∃ r, PyUrl.urlparse checkNetloc value = some r ∧ r.scheme = py "http" ∧
      (∃ host ∈ localGdevHosts, r.hostname env.lower = some host) ∧
      r.username.getD [] = [] ∧ r.password.getD [] = [] ∧ (r.path = [] ∨ r.path = py "/") ∧
      base = (value.reverse.dropWhile (· = 47)).reverse := by
  unfold validateLocalBaseUrl at h
  cases hparse : PyUrl.urlparse checkNetloc value with
  | none => simp [withUrlparse, hparse] at h
  | some r =>
    have hparts : (withUrlparse env checkNetloc).urlparse value = some (urlParts env r) := by
      simp [withUrlparse, hparse]
    simp only [hparts] at h
    split_ifs at h with hscheme hhost huser hpath
    refine ⟨r, rfl, not_not.mp hscheme, ?_, ?_, ?_, ?_, ?_⟩
    · simp only [List.mem_cons, List.not_mem_nil, or_false] at hhost
      rcases hhost with hhost | hhost | hhost
      · exact ⟨_, by simp [localGdevHosts], hhost⟩
      · exact ⟨_, by simp [localGdevHosts], hhost⟩
      · exact ⟨_, by simp [localGdevHosts], hhost⟩
    · exact not_not.mp (not_or.mp huser).1
    · exact not_not.mp (not_or.mp huser).2
    · exact (List.mem_pair.mp hpath).imp id id
    · exact (Except.ok.inj h).symm

/-- A webhook path behind an authority is the whole path exactly when nothing stood before it. -/
theorem splitTail_webhook (netloc rest : PyStr) :
    let r := PyUrl.splitTail (py "http") netloc (rest ++ py "/webhook")
    r.path = py "/webhook" ∧ r.params = [] ∧ r.query = [] ∧ r.fragment = [] ↔ rest = [] := by
  have hslash : py "/webhook" = 47 :: py "webhook" := by decide
  rw [hslash]
  exact PyUrl.splitTail_append (by decide) (by decide) rest

/-- The URL a job requests under an accepted base is the webhook of a local host and nothing else
exactly when the authority of the base is a loopback host with at most a port behind it, and the
base ended there or in one slash after it. -/
theorem local_request_is_webhook_iff (env : RunnerEnv) (checkNetloc : PyStr → Bool)
    (value base : PyStr)
    (h : validateLocalBaseUrl (withUrlparse env checkNetloc) value = .ok base) :
    (∃ r, PyUrl.urlparse checkNetloc (base ++ py "/webhook") = some r ∧ LocalWebhook env r) ↔
      LoopbackAuthority env.lower (PyUrl.netloc value) ∧
      (PyUrl.tail value = [] ∨ (PyUrl.tail value = py "/" ∧ value.getLast? = some 47)) := by
  obtain ⟨r, hparse, hscheme, hhost, huser, hpassword, hpath, hbase⟩ := validateLocalBaseUrl_spec h
  obtain ⟨slashes, hvalue, hslashes, hlast⟩ := rstrip_slashes value
  rw [← hbase] at hvalue
  unfold PyUrl.urlparse at hparse
  split_ifs at hparse with hcheck
  cases hparse
  have hnetloc : PyUrl.netloc value ≠ [] := by
    intro hnil
    obtain ⟨host, -, hhost⟩ := hhost
    rw [PyUrl.ParseResult.hostname_of_netloc_nil hnil] at hhost
    cases hhost
  rw [PyUrl.scheme_splitTail] at hscheme
  have hhttp : (PyUrl.splitScheme (PyUrl.clean value)).1 ≠ [] := by
    rw [hscheme]
    decide
  obtain ⟨rest, hrest⟩ := @PyUrl.append_of_netloc base slashes hslashes (hvalue ▸ hhttp)
    (hvalue ▸ hnetloc)
  rw [← hvalue] at hrest
  -- The request and the value differ only in what follows `rest`.
  obtain ⟨hscheme', hnetloc', htail'⟩ := hrest (py "/webhook") (by decide) (by decide)
  obtain ⟨-, -, htail⟩ := hrest slashes (fun c hc => hslashes c (List.mem_of_mem_head? hc))
    (fun c hc => by rw [hslashes c hc]; decide)
  rw [← hvalue] at htail
  have hrequest : PyUrl.urlparse checkNetloc (base ++ py "/webhook") =
      some (PyUrl.splitTail (py "http") (PyUrl.netloc value) (rest ++ py "/webhook")) := by
    unfold PyUrl.urlparse
    rw [hscheme', hnetloc', htail', if_pos hcheck, hscheme]
  have hsame : (PyUrl.splitTail (py "http") (PyUrl.netloc value) (rest ++ py "/webhook")).netloc =
      (PyUrl.splitTail (PyUrl.splitScheme (PyUrl.clean value)).1 (PyUrl.netloc value)
        (PyUrl.tail value)).netloc := rfl
  have hwebhook := splitTail_webhook (PyUrl.netloc value) rest
  have hmeets : (∃ r, PyUrl.urlparse checkNetloc (base ++ py "/webhook") = some r ∧
      LocalWebhook env r) ↔ LoopbackAuthority env.lower (PyUrl.netloc value) ∧ rest = [] := by
    rw [hrequest]
    refine Iff.trans ?_ (and_congr_right' hwebhook)
    constructor
    · rintro ⟨r, hr, hlocal⟩
      cases hr
      exact ⟨hlocal.authority, hlocal.path, hlocal.params, hlocal.query, hlocal.fragment⟩
    · rintro ⟨hauthority, hpath, hparams, hquery, hfragment⟩
      rw [← PyUrl.ParseResult.hostname_congr hsame] at hhost
      rw [← PyUrl.ParseResult.username_congr hsame] at huser
      rw [← PyUrl.ParseResult.password_congr hsame] at hpassword
      exact ⟨_, rfl, PyUrl.scheme_splitTail _ _ _, hauthority, hhost, huser, hpassword, hpath,
        hparams, hquery, hfragment⟩
  rw [hmeets, htail]
  refine and_congr_right' ?_
  constructor
  · rintro rfl
    rw [htail, List.nil_append, PyUrl.path_splitTail_slashes hslashes] at hpath
    rcases hpath with hnil | hone
    · exact .inl hnil
    · refine .inr ⟨hone, not_not.mp fun hne => ?_⟩
      rw [hlast.mpr hne] at hone
      cases hone
  · rintro (hnil | ⟨hone, hend⟩)
    · exact (List.append_eq_nil_iff.mp hnil).1
    · have hne : slashes ≠ [] := fun hnil => hlast.mp hnil hend
      have hlength := congrArg List.length hone
      have hpos := List.length_pos_iff.mpr hne
      rw [List.length_append, show (py "/").length = 1 from rfl] at hlength
      exact List.length_eq_zero_iff.mp (by omega)

/-- A library that lowers nothing, for URLs already in lower case. -/
def lowerCaseEnv : RunnerEnv where
  sha256 _ := ""
  floatRepr _ := []
  strOther _ := []
  jsonLoads _ := .ok (.obj [])
  resolve _ := .other ""
  floatRepr_ascii := noText_ascii
  strOther_storable := noText_storable
  jsonLoads_dumps := emptyObject_read
  lower s := s
  floatOfInt _ := none
  floatOfText _ := none
  hmacSha256 _ _ := ""
  urlparse _ := none

theorem local_request_is_webhook_iff_port : ∃ r,
    PyUrl.urlparse (fun _ => true) (py "http://127.0.0.1:8000" ++ py "/webhook") = some r ∧
    LocalWebhook lowerCaseEnv r :=
  (local_request_is_webhook_iff lowerCaseEnv (fun _ => true) (py "http://127.0.0.1:8000/")
    (py "http://127.0.0.1:8000") (by decide)).mpr
      ⟨⟨py "127.0.0.1", py ":8000", by decide, by decide, .inr ⟨py "8000", by decide⟩⟩,
        .inr (by decide)⟩

/-- A query is not looked at, and takes the path in. -/
theorem local_request_in_query :
    validateLocalBaseUrl (withUrlparse lowerCaseEnv fun _ => true) (py "http://localhost?x=1") =
      .ok (py "http://localhost?x=1") ∧
    PyUrl.urlparse (fun _ => true) (py "http://localhost?x=1" ++ py "/webhook") =
      some ⟨py "http", py "localhost", [], [], py "x=1/webhook", []⟩ ∧
    ¬ ∃ r, PyUrl.urlparse (fun _ => true) (py "http://localhost?x=1" ++ py "/webhook") = some r ∧
      LocalWebhook lowerCaseEnv r := by
  have hparse : PyUrl.urlparse (fun _ => true) (py "http://localhost?x=1" ++ py "/webhook") =
      some ⟨py "http", py "localhost", [], [], py "x=1/webhook", []⟩ := by decide
  refine ⟨by decide, hparse, ?_⟩
  rintro ⟨r, hr, hlocal⟩
  cases hparse.symm.trans hr
  exact absurd hlocal.path (by decide)

end AgentRuntimeGrid.GdevAgent
