import HttpsDnsProxy.CommandLine
import HttpsDnsProxy.Credentials
import HttpsDnsProxy.Logging

/-!
# From the command line to the loop

`main` reads the options, sets up libcurl, binds its sockets, gives up the ids of root, and starts
the poller of the resolver's address before it enters the loop. Each call that fails on this way
ends the process : `FLOG` logs a line and exits.

The system is a parameter (`Kernel`) that may let any call fail, and has to refuse those that the
ids of the process do not permit. Each call is kept with the ids it is made with.

* `main_eq` : `main` makes the calls of `plan` one after the other;
* `performed` : each with the ids that those before it leave, which permit it;
* `accepted_ids` : what accepted options say about the user and the group.

`startup_privileges` : the sockets are bound with the ids the process was started with, and if root
has started it, the warning is printed exactly if the loop runs with an id of root.
-/

namespace HttpsDnsProxy

namespace Startup

open CommandLine Posix

/-- `ai_family`. -/
inductive AddressFamily where
  | inet
  | inet6
  | other (family : ℤ)
  deriving DecidableEq, Repr

/-- The type of a socket. -/
inductive SockType where
  | dgram
  | stream
  deriving DecidableEq, Repr

/-- What `getaddrinfo` gives for the listen address, with the port that `main` puts in. -/
structure ListenAddress where
  family : AddressFamily
  /-- The address as `inet_ntop` writes it. -/
  ipstr : CString
  port : ℕ
  deriving DecidableEq, Repr

/-- A call on the way to the loop that may end the process, or the check of `ai_family`. -/
inductive StartupCall where
  | curlGlobalInit
  | curlVersionInfo
  | curlMultiSetopt (option : String)
  | getaddrinfo (listenAddr : CString)
  | socket (type : SockType)
  | checkFamily (addr : ListenAddress)
  | bind (type : SockType) (addr : ListenAddress)
  | alloc
  | listen (addr : ListenAddress)
  | getFlags (addr : ListenAddress)
  | setFlags (addr : ListenAddress)
  | ids (call : IdCall)
  | daemon
  | aresLibraryInit
  | aresInitOptions
  | aresSetServers (bootstrapDns : CString)
  deriving DecidableEq, Repr

namespace StartupCall

/-- The ids after the call. -/
def effect (c : Credentials) : StartupCall → Credentials
  | .ids call => c.call call
  | _ => c

/-- Whether the ids permit the call. -/
def permitted (c : Credentials) : StartupCall → Bool
  | .ids call => c.permits call
  | .bind _ addr => c.mayBind addr.port
  | _ => true

/-- The call binds a socket. -/
def isBind : StartupCall → Bool
  | .bind _ _ => true
  | _ => false

/-- The call sets the ids of the process. -/
def isIds : StartupCall → Bool
  | .ids _ => true
  | _ => false

/-- `"%s:%d"`. -/
def place (addr : ListenAddress) : CString :=
  addr.ipstr ++ ":".toList ++ decimal addr.port

/-- `"%s (%d)"`. -/
def reason (code : ℤ) (text : CString) : CString :=
  text ++ " (".toList ++ decimal code ++ ")".toList

/-- The line that is logged if the call fails, with the code of the error and its text. -/
def message (code : ℤ) (text : CString) : StartupCall → CString
  | .curlGlobalInit =>
    "Failed to initialize curl, error code ".toList ++ decimal code ++ ": ".toList ++ text
  | .curlVersionInfo => "Failed to get curl version info!".toList
  | .curlMultiSetopt option =>
    option.toList ++ " error ".toList ++ decimal code ++ ": ".toList ++ text
  | .getaddrinfo listenAddr =>
    "Error parsing listen address ".toList ++ listenAddr ++ ", getaddrinfo error: ".toList ++ text
  | .socket .dgram => "Error creating socket: ".toList ++ reason code text
  | .socket .stream => "Error creating TCP socket: ".toList ++ reason code text
  | .checkFamily _ => "Unknown address family: ".toList ++ decimal code
  | .bind .dgram addr =>
    "Error binding on ".toList ++ place addr ++ " UDP: ".toList ++ reason code text
  | .bind .stream addr =>
    "Error binding on ".toList ++ place addr ++ " TCP: ".toList ++ reason code text
  | .alloc => "Out of mem".toList
  | .listen addr =>
    "Error listening on ".toList ++ place addr ++ " TCP: ".toList ++ reason code text
  | .getFlags addr =>
    "Error getting TCP socket flags on ".toList ++ place addr ++ ": ".toList ++ reason code text
  | .setFlags addr =>
    "Error setting TCP socket to non-blocking on ".toList ++ place addr ++ ": ".toList ++
      reason code text
  | .ids (.setgroups _) => "Failed to set groups".toList
  | .ids (.setgid _) => "Failed to set gid".toList
  | .ids (.setuid _) => "Failed to set uid".toList
  | .daemon => "daemon failed: ".toList ++ text
  | .aresLibraryInit => "ares_library_init error: ".toList ++ text
  | .aresInitOptions => "ares_init_options error: ".toList ++ text
  | .aresSetServers _ => "ares_set_servers_ports_csv error: ".toList ++ text

end StartupCall

/-- The system and the libraries. `error` is the code and the text of the error a call fails with,
and a call that the ids do not permit fails. -/
structure Kernel where
  error : Credentials → StartupCall → Option (ℤ × CString)
  refuses : ∀ c call, call.permitted c = false → (error c call).isSome = true
  /-- What `getaddrinfo` finds, if it does not fail. -/
  family : CString → AddressFamily
  ipstr : CString → CString
  /-- The lines about the libraries, if `curl_version_info` gives something. -/
  curlVersion : Option (List CString)

/-- The error a call fails with. The check of `ai_family` is no call of the system. -/
def Kernel.failure (k : Kernel) (c : Credentials) : StartupCall → Option (ℤ × CString)
  | .checkFamily addr =>
    match addr.family with
    | .inet | .inet6 => none
    | .other family => some (family, [])
  | call => k.error c call

/-- The process, with the calls it has made and the ids it has made each with. -/
structure Process where
  cred : Credentials
  calls : List (StartupCall × Credentials)

/-- An end before the loop : `exit`, with the lines printed before the usage, or `FLOG`. -/
inductive Exit where
  | exit (code : ℕ) (printed : List CString)
  | fatal (message : CString)
  deriving DecidableEq, Repr

/-! ## The functions -/

/-- `(uid_t)-1`. -/
def noId : ℕ := 2 ^ 32 - 1

/-- `sw_version`, if the build does not set another. -/
def swVersion : CString := "2025.8.26-atLeast".toList

/-- The `switch` of `main` over what `options_parse_args` returns. -/
def accept (curlVersion : Option (List CString)) (parsed : Parsed) :
    Except Exit CommandLine.Options :=
  match parsed.result with
  | .success => .ok parsed.opt
  | .help => .error (.exit 0 parsed.printed)
  | .version =>
    let printed := parsed.printed ++ [swVersion ++ ['\n']]
    match curlVersion with
    | some lines => .error (.exit 0 (printed ++ lines))
    | none => .error (.exit 1 (printed ++ ["\nFailed to get curl version info!\n".toList]))
  | .parsingError =>
    .error (.exit 1 (parsed.printed ++ ["Failed to parse options!\n".toList, "\n".toList]))
  | .optionError => .error (.exit 1 (parsed.printed ++ ["\n".toList]))

section Functions

variable (k : Kernel)

/-- A call, and `FLOG` if it fails. -/
def perform (p : Process) (call : StartupCall) : Except Exit Process :=
  match k.failure p.cred call with
  | some (code, text) => .error (.fatal (call.message code text))
  | none => .ok ⟨call.effect p.cred, p.calls ++ [(call, p.cred)]⟩

/-- A part of the way that is taken under a condition. -/
def performIf (b : Prop) [Decidable b] (f : Process → Except Exit Process) (p : Process) :
    Except Exit Process :=
  if b then f p else pure p

/-- The options that `https_client_multi_init` sets. -/
def multiOptions : List String :=
  ["CURLMOPT_PIPELINING", "CURLMOPT_MAX_TOTAL_CONNECTIONS", "CURLMOPT_MAX_HOST_CONNECTIONS",
    "CURLMOPT_SOCKETDATA", "CURLMOPT_SOCKETFUNCTION", "CURLMOPT_TIMERDATA",
    "CURLMOPT_TIMERFUNCTION"]

/-- `https_client_multi_init`. -/
def httpsClientMultiInit (p : Process) : Except Exit Process :=
  multiOptions.foldlM (fun p option => perform k p (.curlMultiSetopt option)) p

/-- What `get_listen_address` returns, with the port that `main` puts in. -/
def listenAddress (opt : CommandLine.Options) : ListenAddress :=
  ⟨k.family opt.listenAddr, k.ipstr opt.listenAddr, (opt.listenPort % 2 ^ 16).toNat⟩

/-- `get_listen_sock`. -/
def getListenSock (addr : ListenAddress) (p : Process) : Except Exit Process := do
  let p ← perform k p (.socket .dgram)
  let p ← perform k p (.checkFamily addr)
  perform k p (.bind .dgram addr)

/-- `get_tcp_listen_sock`. A failure to set `SO_REUSEADDR` is logged only. -/
def getTcpListenSock (addr : ListenAddress) (p : Process) : Except Exit Process := do
  let p ← perform k p (.socket .stream)
  let p ← perform k p (.checkFamily addr)
  let p ← perform k p (.bind .stream addr)
  let p ← perform k p (.listen addr)
  let p ← perform k p (.getFlags addr)
  perform k p (.setFlags addr)

/-- `dns_server_tcp_create`. -/
def dnsServerTcpCreate (addr : ListenAddress) (p : Process) : Except Exit Process := do
  let p ← perform k p .alloc
  getTcpListenSock k addr p

/-- Where `main` gives up the ids it was started with. -/
def setIds (opt : CommandLine.Options) (p : Process) : Except Exit Process := do
  let p ← performIf (opt.gid ≠ noId) (fun p => perform k p (.ids (.setgroups [opt.gid]))) p
  let p ← performIf (opt.gid ≠ noId) (fun p => perform k p (.ids (.setgid opt.gid))) p
  performIf (opt.uid ≠ noId) (fun p => perform k p (.ids (.setuid opt.uid))) p

/-- `dns_poller_init`. -/
def dnsPollerInit (opt : CommandLine.Options) (p : Process) : Except Exit Process := do
  let p ← perform k p .aresLibraryInit
  let p ← perform k p .aresInitOptions
  let p ← perform k p (.aresSetServers opt.bootstrapDns)
  perform k p .alloc

/-- The resolver has a host that `main` polls. -/
def polls (curl : UrlParser) (opt : CommandLine.Options) : Bool :=
  (polledHostname curl (opt.resolverUrl.getD []) opt.curlProxy).isSome

/-- What `options_parse_args` makes of the command line. -/
def parsed (sys : System) (argv : List CString) (cred : Credentials) : Parsed :=
  optionsParseArgs { sys with getuid := cred.ruid } optionsInit argv

/-- `main` as far as `ev_run` : the options and the process in the loop. -/
def main (sys : System) (curl : UrlParser) (argv : List CString) (cred : Credentials) :
    Except Exit (CommandLine.Options × Process) := do
  let opt ← accept k.curlVersion (parsed sys argv cred)
  let p ← perform k ⟨cred, []⟩ .curlGlobalInit
  let p ← perform k p .curlVersionInfo
  let p ← httpsClientMultiInit k p
  let p ← perform k p (.getaddrinfo opt.listenAddr)
  let addr := listenAddress k opt
  let p ← getListenSock k addr p
  let p ← performIf (opt.tcpClientLimit > 0) (dnsServerTcpCreate k addr) p
  let p ← setIds k opt p
  let p ← performIf opt.daemonize (fun p => perform k p .daemon) p
  let p ← performIf (polls curl opt) (dnsPollerInit k opt) p
  pure (opt, p)

end Functions

/-! ## The plan -/

/-- The calls for the sockets. -/
def socketCalls (opt : CommandLine.Options) (addr : ListenAddress) : List StartupCall :=
  [.socket .dgram, .checkFamily addr, .bind .dgram addr] ++
    if opt.tcpClientLimit > 0 then
      [.alloc, .socket .stream, .checkFamily addr, .bind .stream addr, .listen addr,
        .getFlags addr, .setFlags addr]
    else []

/-- The calls before the ids are set. -/
def setupCalls (opt : CommandLine.Options) (addr : ListenAddress) : List StartupCall :=
  [.curlGlobalInit, .curlVersionInfo] ++ multiOptions.map .curlMultiSetopt ++
    [.getaddrinfo opt.listenAddr] ++ socketCalls opt addr

/-- The calls that set ids. -/
def idCalls (opt : CommandLine.Options) : List IdCall :=
  (if opt.gid ≠ noId then [.setgroups [opt.gid], .setgid opt.gid] else []) ++
    if opt.uid ≠ noId then [.setuid opt.uid] else []

/-- The calls after the ids are set. -/
def lateCalls (curl : UrlParser) (opt : CommandLine.Options) : List StartupCall :=
  (if opt.daemonize then [.daemon] else []) ++
    if polls curl opt then
      [.aresLibraryInit, .aresInitOptions, .aresSetServers opt.bootstrapDns, .alloc]
    else []

/-- The calls on the way to the loop. -/
def plan (k : Kernel) (curl : UrlParser) (opt : CommandLine.Options) : List StartupCall :=
  setupCalls opt (listenAddress k opt) ++ (idCalls opt).map .ids ++ lateCalls curl opt

section Plan

variable (k : Kernel)

theorem performIf_eq {b : Prop} [Decidable b] {f : Process → Except Exit Process}
    {cs : List StartupCall} (hf : ∀ p, f p = cs.foldlM (perform k) p) (p : Process) :
    performIf b f p = (if b then cs else []).foldlM (perform k) p := by
  unfold performIf
  split_ifs
  · exact hf p
  · rfl

theorem performIf_one {b : Prop} [Decidable b] (call : StartupCall) (p : Process) :
    performIf b (fun p => perform k p call) p = (if b then [call] else []).foldlM (perform k) p :=
  performIf_eq k (fun p => by simp) p

theorem httpsClientMultiInit_eq (p : Process) : httpsClientMultiInit k p =
    (multiOptions.map StartupCall.curlMultiSetopt).foldlM (perform k) p := by
  rw [List.foldlM_map]
  rfl

theorem dnsServerTcpCreate_eq (addr : ListenAddress) (p : Process) :
    dnsServerTcpCreate k addr p = [.alloc, .socket .stream, .checkFamily addr, .bind .stream addr,
      .listen addr, .getFlags addr, .setFlags addr].foldlM (perform k) p := by
  simp [dnsServerTcpCreate, getTcpListenSock]

theorem getListenSock_eq (addr : ListenAddress) (p : Process) : getListenSock k addr p =
    [.socket .dgram, .checkFamily addr, .bind .dgram addr].foldlM (perform k) p := by
  simp [getListenSock]

theorem dnsPollerInit_eq (opt : CommandLine.Options) (p : Process) : dnsPollerInit k opt p =
    [.aresLibraryInit, .aresInitOptions, .aresSetServers opt.bootstrapDns, .alloc].foldlM
      (perform k) p := by
  simp [dnsPollerInit]

theorem setIds_eq (opt : CommandLine.Options) (p : Process) :
    setIds k opt p = ((idCalls opt).map .ids).foldlM (perform k) p := by
  unfold setIds idCalls
  simp only [performIf_one, List.map_append, List.foldlM_append]
  by_cases hgid : opt.gid = noId <;> by_cases huid : opt.uid = noId <;> simp [hgid, huid]

/-- On its way to the loop `main` makes the calls of the plan for the options it has accepted. -/
theorem main_eq (sys : System) (curl : UrlParser) (argv : List CString) (cred : Credentials) :
    main k sys curl argv cred = accept k.curlVersion (parsed sys argv cred) >>= fun opt =>
      (plan k curl opt).foldlM (perform k) ⟨cred, []⟩ >>= fun p => pure (opt, p) := by
  unfold main
  refine congrArg _ (funext fun opt => ?_)
  simp only [plan, setupCalls, socketCalls, lateCalls, List.foldlM_append,
    httpsClientMultiInit_eq, getListenSock_eq, setIds_eq, performIf_one,
    performIf_eq k (dnsServerTcpCreate_eq k _), performIf_eq k (dnsPollerInit_eq k _), bind_assoc,
    List.foldlM_cons, List.foldlM_nil, bind_pure]

/-- The options are accepted, or `main` exits. -/
theorem accept_cases (curlVersion : Option (List CString)) (parsed : Parsed) :
    (parsed.result = .success ∧ accept curlVersion parsed = .ok parsed.opt) ∨
      ∃ code printed, accept curlVersion parsed = .error (.exit code printed) := by
  unfold accept
  cases hresult : parsed.result with
  | success => exact Or.inl ⟨rfl, rfl⟩
  | version =>
    cases curlVersion with
    | some lines => exact Or.inr ⟨_, _, rfl⟩
    | none => exact Or.inr ⟨_, _, rfl⟩
  | help | optionError | parsingError => exact Or.inr ⟨_, _, rfl⟩

variable {k}

theorem main_eq_ok {sys : System} {curl : UrlParser} {argv : List CString} {cred : Credentials}
    {opt : CommandLine.Options} {p : Process} (h : main k sys curl argv cred = .ok (opt, p)) :
    (parsed sys argv cred).result = .success ∧ (parsed sys argv cred).opt = opt ∧
      (plan k curl opt).foldlM (perform k) ⟨cred, []⟩ = .ok p := by
  rw [main_eq] at h
  obtain ⟨opt', haccept, h⟩ := exists_of_bind_eq_ok h
  obtain ⟨p', hplan, h⟩ := exists_of_bind_eq_ok h
  obtain ⟨rfl, rfl⟩ := Prod.mk.inj (Except.ok.inj h)
  rcases accept_cases k.curlVersion (parsed sys argv cred) with ⟨hsuccess, hok⟩ | ⟨_, _, hexit⟩
  · exact ⟨hsuccess, Except.ok.inj (hok.symm.trans haccept), hplan⟩
  · rw [hexit] at haccept
    cases haccept

end Plan

/-! ## The ids along the plan -/

/-- The calls, each with the ids that those before it leave. -/
def traced : Credentials → List StartupCall → List (StartupCall × Credentials)
  | _, [] => []
  | cred, call :: calls => (call, cred) :: traced (call.effect cred) calls

section Ids

variable {k : Kernel} {curl : UrlParser} {opt : CommandLine.Options} {p p' : Process}
  {cs : List StartupCall} {cred : Credentials}

theorem perform_eq_ok {call : StartupCall} (h : perform k p call = .ok p') :
    call.permitted p.cred = true ∧
      p' = ⟨call.effect p.cred, p.calls ++ [(call, p.cred)]⟩ := by
  unfold perform at h
  split at h
  · cases h
  · next hnone =>
    refine ⟨?_, (Except.ok.inj h).symm⟩
    by_contra hnot
    have hrefused := k.refuses p.cred call (Bool.not_eq_true _ ▸ hnot)
    cases call with
    | checkFamily addr => exact hnot rfl
    | _ =>
      simp only [Kernel.failure] at hnone
      simp [hnone] at hrefused

/-- The calls of a plan are made one after the other, each with the ids that those before it
leave, which permit it. -/
theorem performed :
    ∀ {cs : List StartupCall} {p : Process}, cs.foldlM (perform k) p = .ok p' →
      p'.cred = cs.foldl StartupCall.effect p.cred ∧ p'.calls = p.calls ++ traced p.cred cs ∧
        ∀ c ∈ traced p.cred cs, c.1.permitted c.2 = true
  | [], p, h => by
    obtain rfl := Except.ok.inj h
    simp [traced]
  | call :: cs, p, h => by
    rw [List.foldlM_cons] at h
    obtain ⟨p₁, hcall, hrest⟩ := exists_of_bind_eq_ok h
    obtain ⟨hpermitted, rfl⟩ := perform_eq_ok hcall
    obtain ⟨hcred, hcalls, hall⟩ := performed hrest
    refine ⟨hcred, ?_, ?_⟩
    · rw [hcalls, List.append_assoc]
      rfl
    · rintro c (_ | ⟨_, hc⟩)
      · exact hpermitted
      · exact hall c hc

theorem traced_append (cred : Credentials) (cs ds : List StartupCall) :
    traced cred (cs ++ ds) = traced cred cs ++ traced (cs.foldl StartupCall.effect cred) ds := by
  induction cs generalizing cred with
  | nil => rfl
  | cons call cs ih => simp [traced, ih]

theorem mem_of_mem_traced {c : StartupCall × Credentials} (h : c ∈ traced cred cs) : c.1 ∈ cs := by
  induction cs generalizing cred with
  | nil => cases h
  | cons call cs ih =>
    rcases List.mem_cons.1 h with rfl | h
    · exact List.mem_cons_self ..
    · exact List.mem_cons_of_mem _ (ih h)

/-- Calls that are not about ids leave them as they are. -/
theorem traced_of_not_ids (cred : Credentials) (h : ∀ c ∈ cs, c.isIds = false) :
    cs.foldl StartupCall.effect cred = cred ∧ traced cred cs = cs.map (·, cred) := by
  induction cs with
  | nil => exact ⟨rfl, rfl⟩
  | cons call cs ih =>
    have hcall : call.effect cred = cred := by
      have hnot := h call (List.mem_cons_self ..)
      cases call with
      | ids _ => cases hnot
      | _ => rfl
    obtain ⟨hcred, htraced⟩ := ih fun c hc => h c (List.mem_cons_of_mem _ hc)
    refine ⟨?_, ?_⟩
    · rw [List.foldl_cons, hcall, hcred]
    · rw [traced, hcall, htraced, List.map_cons]

theorem setupCalls_not_ids (opt : CommandLine.Options) (addr : ListenAddress) :
    ∀ c ∈ setupCalls opt addr, c.isIds = false := by
  unfold setupCalls socketCalls multiOptions
  split_ifs <;> simp [StartupCall.isIds]

theorem lateCalls_not_ids (curl : UrlParser) (opt : CommandLine.Options) :
    ∀ c ∈ lateCalls curl opt, c.isIds = false := by
  unfold lateCalls
  split_ifs <;> simp [StartupCall.isIds]

theorem lateCalls_not_bind (curl : UrlParser) (opt : CommandLine.Options) :
    ∀ c ∈ lateCalls curl opt, c.isBind = false := by
  unfold lateCalls
  split_ifs <;> simp [StartupCall.isBind]

theorem effect_ids (cred : Credentials) (es : List IdCall) :
    (es.map StartupCall.ids).foldl StartupCall.effect cred = Runs.run Credentials.call cred es :=
  List.foldl_map

/-- The ids in the loop are those that the calls about ids leave. -/
theorem effect_plan (k : Kernel) (curl : UrlParser) (opt : CommandLine.Options)
    (cred : Credentials) : (plan k curl opt).foldl StartupCall.effect cred =
      Runs.run Credentials.call cred (idCalls opt) := by
  rw [plan, List.foldl_append, List.foldl_append,
    (traced_of_not_ids cred (setupCalls_not_ids opt _)).1, effect_ids,
    (traced_of_not_ids _ (lateCalls_not_ids curl opt)).1]

/-- Before the ids are set, the calls are made with those the process was started with. -/
theorem traced_plan (k : Kernel) (curl : UrlParser) (opt : CommandLine.Options)
    (cred : Credentials) : traced cred (plan k curl opt) =
      (setupCalls opt (listenAddress k opt)).map (·, cred) ++
        traced cred ((idCalls opt).map .ids) ++
        (lateCalls curl opt).map (·, Runs.run Credentials.call cred (idCalls opt)) := by
  obtain ⟨hcred, hsetup⟩ := traced_of_not_ids cred (setupCalls_not_ids opt (listenAddress k opt))
  rw [plan, traced_append, traced_append, List.foldl_append, hsetup, hcred, effect_ids,
    (traced_of_not_ids _ (lateCalls_not_ids curl opt)).2]

/-- The sockets are bound with the ids the process was started with. -/
theorem cred_of_isBind (k : Kernel) (curl : UrlParser) (opt : CommandLine.Options)
    {c : StartupCall × Credentials} (hc : c ∈ traced cred (plan k curl opt))
    (hbind : c.1.isBind = true) : c.2 = cred := by
  rw [traced_plan, List.append_assoc] at hc
  rcases List.mem_append.1 hc with hc | hc
  · obtain ⟨call, -, rfl⟩ := List.mem_map.1 hc
    rfl
  rcases List.mem_append.1 hc with hc | hc
  · obtain ⟨call, -, hcall⟩ := List.mem_map.1 (mem_of_mem_traced hc)
    rw [← hcall] at hbind
    cases hbind
  · obtain ⟨call, hcall, rfl⟩ := List.mem_map.1 hc
    rw [lateCalls_not_bind curl opt call hcall] at hbind
    cases hbind

/-- A port below 1024 and other groups need the id of root from the start. -/
theorem permitted_plan (hall : ∀ c ∈ traced cred (plan k curl opt), c.1.permitted c.2 = true) :
    cred.mayBind (listenAddress k opt).port = true ∧ (opt.gid ≠ noId → cred.euid = 0) := by
  rw [traced_plan] at hall
  constructor
  · refine hall (.bind .dgram (listenAddress k opt), cred) ?_
    simp [setupCalls, socketCalls]
  · intro hgid
    have hgroups := hall (.ids (.setgroups [opt.gid]), cred) (by simp [idCalls, hgid, traced])
    simpa [StartupCall.permitted, Credentials.permits] using hgroups

end Ids

/-! ## The user and the group -/

/-- The text of the warning of `options_parse_args`. -/
def rootWarning : CString :=
  ("----------------------------\n" ++
    "WARNING: Running as root without dropping privileges is NOT recommended.\n" ++
    "----------------------------\n").toList

/-- No user and no group has the number that stands for none. -/
structure ProperIds (sys : System) : Prop where
  user : ∀ name, sys.getpwnam name ≠ some noId
  group : ∀ name, sys.getgrnam name ≠ some noId

/-- The number of a user or group : none is given, or it is a proper one and not the one of
root. -/
inductive GivenId (name : Option CString) (id : ℕ) : Prop where
  | none : name = .none → id = noId → GivenId name id
  | some : name ≠ .none → id ≠ noId → id ≠ 0 → GivenId name id

section Accepted

variable {sys : System} {s s' : Checked}

theorem setId_eq_ok {name : Option CString} {lookup : CString → Option ℕ} {kind : String}
    {store : ℕ → CommandLine.Options} (h : setId name lookup kind store s = .ok s') :
    (name = none ∧ s' = s) ∨ ∃ t id, name = some t ∧ lookup t = some id ∧ id ≠ 0 ∧
      s' = { s with opt := store id } := by
  unfold setId at h
  split at h
  · exact Or.inl ⟨rfl, (Except.ok.inj h).symm⟩
  next t =>
  split at h
  · cases h
  · cases h
  next id hne hid =>
  exact Or.inr ⟨t, id, rfl, hid, hne, (Except.ok.inj h).symm⟩

/-- Behind the user and the group the checks change the options and what is printed only where
the log is opened. -/
theorem checkOptions_of_ok (h : checkOptions sys s = .ok s') :
    ∃ s₁ s₂, setUser sys s = .ok s₁ ∧ setGroup sys s₁ = .ok s₂ ∧
      s' = openLog sys (warnRoot sys (shiftDscp s₂)) := by
  unfold checkOptions at h
  obtain ⟨s₁, huser, h⟩ := exists_of_bind_eq_ok h
  obtain ⟨s₂, hgroup, h⟩ := exists_of_bind_eq_ok h
  obtain ⟨s₃, hdscp, h⟩ := exists_of_bind_eq_ok h
  obtain ⟨s₄, hurl, h⟩ := exists_of_bind_eq_ok h
  obtain ⟨s₅, hpolling, h⟩ := exists_of_bind_eq_ok h
  obtain ⟨s₆, hidle, h⟩ := exists_of_bind_eq_ok h
  obtain ⟨s₇, hloss, h⟩ := exists_of_bind_eq_ok h
  obtain ⟨s₈, hstats, h⟩ := exists_of_bind_eq_ok h
  obtain ⟨s₉, hrecorder, h⟩ := exists_of_bind_eq_ok h
  obtain ⟨s₁₀, hport, hlimit⟩ := exists_of_bind_eq_ok h
  obtain ⟨rfl, -⟩ := checkRange_eq_ok hlimit
  obtain ⟨rfl, -⟩ := checkRange_eq_ok hport
  obtain ⟨rfl, -⟩ := checkFlightRecorderSize_eq_ok hrecorder
  obtain ⟨rfl, -⟩ := checkRange_eq_ok hstats
  obtain ⟨rfl, -⟩ := checkRange_eq_ok hloss
  obtain ⟨rfl, -⟩ := checkRange_eq_ok hidle
  obtain ⟨rfl, -⟩ := checkRange_eq_ok hpolling
  obtain ⟨rfl, -⟩ := checkResolverUrl_eq_ok hurl
  obtain ⟨rfl, -⟩ := checkRange_eq_ok hdscp
  exact ⟨s₁, s₃, huser, hgroup, rfl⟩

/-- No option sets a number of a user or group by itself. -/
theorem ids_parseOption {opt opt' : CommandLine.Options} {c : Char} {optarg : CString}
    (h : parseOption opt c optarg = .ok opt') : opt'.uid = opt.uid ∧ opt'.gid = opt.gid := by
  unfold parseOption at h
  split at h
  case h_14 =>
    obtain rfl := Except.ok.inj h
    split_ifs <;> exact ⟨rfl, rfl⟩
  case h_15 | h_16 =>
    unfold setHttpVersion at h
    split_ifs at h
    obtain rfl := Except.ok.inj h
    exact ⟨rfl, rfl⟩
  all_goals cases h
  all_goals exact ⟨rfl, rfl⟩

theorem ids_parseOptions :
    ∀ (given : List (Char × CString)) {opt opt' : CommandLine.Options},
      parseOptions opt given = .ok opt' → opt'.uid = opt.uid ∧ opt'.gid = opt.gid
  | [], opt, opt', h => by
    obtain rfl := Except.ok.inj h
    exact ⟨rfl, rfl⟩
  | (c, optarg) :: given, opt, opt', h => by
    obtain ⟨opt₁, hfirst, hrest⟩ := exists_of_bind_eq_ok h
    obtain ⟨huid, hgid⟩ := ids_parseOptions given hrest
    obtain ⟨huid', hgid'⟩ := ids_parseOption hfirst
    exact ⟨huid.trans huid', hgid.trans hgid'⟩

theorem checked_of_success {opt : CommandLine.Options} {argv : List CString}
    (h : (optionsParseArgs sys opt argv).result = .success) :
    ∃ opt' s₁ s₂, parseOptions opt (sys.getopt argv) = .ok opt' ∧
      setUser sys ⟨opt', []⟩ = .ok s₁ ∧ setGroup sys s₁ = .ok s₂ ∧
      (optionsParseArgs sys opt argv).opt = (openLog sys (warnRoot sys (shiftDscp s₂))).opt ∧
      (optionsParseArgs sys opt argv).printed =
        (openLog sys (warnRoot sys (shiftDscp s₂))).printed := by
  unfold optionsParseArgs at h ⊢
  cases hok : parseOptions opt (sys.getopt argv) >>= fun opt => checkOptions sys ⟨opt, []⟩ with
  | error refusal =>
    rw [hok] at h
    exact absurd h refusal.refused
  | ok s =>
    obtain ⟨opt', hparse, hcheck⟩ := exists_of_bind_eq_ok hok
    obtain ⟨s₁, s₂, huser, hgroup, rfl⟩ := checkOptions_of_ok hcheck
    exact ⟨opt', s₁, s₂, hparse, huser, hgroup, rfl, rfl⟩

/-- The number that is stored for a user or group. -/
theorem givenId_of_lookup {name : Option CString} {lookup : CString → Option ℕ} {t : CString}
    {id : ℕ} (hlookup : ∀ t, lookup t ≠ some noId) (hname : name = some t)
    (hid : lookup t = some id) (hpos : id ≠ 0) : GivenId name id :=
  .some (by simp [hname]) (fun hnone => hlookup t (hid.trans (congrArg _ hnone))) hpos

theorem setUser_spec (hsys : ProperIds sys) (huid : s.opt.uid = noId)
    (h : setUser sys s = .ok s') : GivenId s'.opt.user s'.opt.uid ∧
      s'.opt.group = s.opt.group ∧ s'.opt.gid = s.opt.gid ∧ s'.printed = s.printed := by
  rcases setId_eq_ok h with ⟨hname, rfl⟩ | ⟨t, id, hname, hid, hpos, rfl⟩
  · exact ⟨.none hname huid, rfl, rfl, rfl⟩
  · exact ⟨givenId_of_lookup hsys.user hname hid hpos, rfl, rfl, rfl⟩

theorem setGroup_spec (hsys : ProperIds sys) (hgid : s.opt.gid = noId)
    (h : setGroup sys s = .ok s') : GivenId s'.opt.group s'.opt.gid ∧
      s'.opt.user = s.opt.user ∧ s'.opt.uid = s.opt.uid ∧ s'.printed = s.printed := by
  rcases setId_eq_ok h with ⟨hname, rfl⟩ | ⟨t, id, hname, hid, hpos, rfl⟩
  · exact ⟨.none hname hgid, rfl, rfl, rfl⟩
  · exact ⟨givenId_of_lookup hsys.group hname hid hpos, rfl, rfl, rfl⟩

theorem printed_warnRoot (sys : System) (s : Checked) : (warnRoot sys s).printed = s.printed ++
    if sys.getuid = 0 ∧ (s.opt.user = none ∨ s.opt.group = none) then [rootWarning] else [] := by
  unfold warnRoot
  split_ifs
  · rfl
  · exact (List.append_nil _).symm

/-- The line about the log file is another one. -/
theorem rootWarning_ne (t : CString) :
    rootWarning ≠ "Could not open logfile '".toList ++ t := by
  intro h
  have hhead : rootWarning.head? = some '-' := by decide +kernel
  have hother : ("Could not open logfile '".toList ++ t).head? = some 'C' := by simp
  rw [h, hother] at hhead
  cases hhead

theorem printed_openLog (sys : System) (s : Checked) :
    ∃ lines, (openLog sys s).printed = s.printed ++ lines ∧ rootWarning ∉ lines := by
  unfold openLog
  split
  · exact ⟨[], by simp⟩
  next logfile hlogfile =>
  simp only
  split_ifs
  · exact ⟨[], by simp⟩
  · refine ⟨["Could not open logfile '".toList ++ logfile ++ "' for writing.\n".toList], rfl, ?_⟩
    rw [List.mem_singleton, List.append_assoc]
    exact rootWarning_ne _
  · exact ⟨[], by simp⟩

/-- Accepted options have a number for the user and for the group exactly if they are given, and
the warning is printed exactly if root gives not both. -/
theorem accepted_ids (hsys : ProperIds sys) {argv : List CString}
    (h : (optionsParseArgs sys optionsInit argv).result = .success) :
    let parsed := optionsParseArgs sys optionsInit argv
    GivenId parsed.opt.user parsed.opt.uid ∧ GivenId parsed.opt.group parsed.opt.gid ∧
      (rootWarning ∈ parsed.printed ↔
        sys.getuid = 0 ∧ (parsed.opt.user = none ∨ parsed.opt.group = none)) := by
  intro parsed
  obtain ⟨opt', s₁, s₂, hparse, huser, hgroup, hopt, hprinted⟩ := checked_of_success h
  obtain ⟨huid, hgid⟩ := ids_parseOptions _ hparse
  obtain ⟨hu, -, hgid', hprinted₁⟩ := setUser_spec hsys huid huser
  obtain ⟨hg, huser', huid', hprinted₂⟩ := setGroup_spec hsys (hgid'.trans hgid) hgroup
  -- what comes behind leaves the user and the group alone
  obtain ⟨logfd, hlog⟩ := opt_openLog sys (warnRoot sys (shiftDscp s₂))
  have hfinal : parsed.opt = { (shiftDscp s₂).opt with logfd := logfd } := by
    rw [← opt_warnRoot sys (shiftDscp s₂), ← hlog]
    exact hopt
  obtain ⟨lines, hlines, hnot⟩ := printed_openLog sys (warnRoot sys (shiftDscp s₂))
  have hempty : (shiftDscp s₂).printed = [] := hprinted₂.trans hprinted₁
  have hwarned : parsed.printed =
      (if sys.getuid = 0 ∧ (s₂.opt.user = none ∨ s₂.opt.group = none) then [rootWarning]
        else []) ++ lines := by
    rw [show parsed.printed = _ from hprinted, hlines, printed_warnRoot, hempty]
    rfl
  rw [hfinal, hwarned]
  refine ⟨?_, hg, ?_⟩
  · rw [← huser', ← huid'] at hu
    exact hu
  · rw [List.mem_append, or_iff_left hnot]
    split_ifs with hroot
    · exact iff_of_true (List.mem_singleton_self _) hroot
    · exact iff_of_false List.not_mem_nil hroot

/-- What `main` knows of options it has accepted. -/
theorem parsed_spec (hsys : ProperIds sys) {argv : List CString} {cred : Credentials}
    (h : (parsed sys argv cred).result = .success) :
    let opt := (parsed sys argv cred).opt
    GivenId opt.user opt.uid ∧ GivenId opt.group opt.gid ∧
      (rootWarning ∈ (parsed sys argv cred).printed ↔
        cred.ruid = 0 ∧ (opt.user = none ∨ opt.group = none)) ∧
      0 ≤ opt.listenPort ∧ opt.listenPort ≤ 65535 := by
  intro opt
  have hsys' : ProperIds { sys with getuid := cred.ruid } := ⟨hsys.user, hsys.group⟩
  obtain ⟨huser, hgroup, hwarned⟩ := accepted_ids hsys' h
  obtain ⟨opt', -, hpassed, -⟩ := optionsParseArgs_success h
  obtain ⟨hrange, hfield⟩ := hpassed .listenPort
  have hport : opt.listenPort = opt'.listenPort := hfield.trans (Int.one_mul _)
  exact ⟨huser, hgroup, hwarned, hport ▸ hrange⟩

end Accepted

/-! ## Privileges in the loop -/

section Privileges

variable {opt : CommandLine.Options} {cred : Credentials}

/-- Started by root, the process keeps no id of root exactly if both a user and a group are
given. -/
theorem unprivileged_iff (hroot : cred.Root) (huser : GivenId opt.user opt.uid)
    (hgroup : GivenId opt.group opt.gid) :
    (Runs.run Credentials.call cred (idCalls opt)).Unprivileged ↔
      ¬(opt.user = none ∨ opt.group = none) := by
  cases hgroup with
  | none hgroup hgid =>
    refine iff_of_false (fun h => ?_) fun h => h (Or.inr hgroup)
    -- the group ids are those of the start
    cases huser with
    | none huser huid =>
      refine h.rgid ?_
      simpa [idCalls, hgid, huid] using hroot.rgid
    | some huser huid hpos =>
      refine h.rgid ?_
      simpa [idCalls, hgid, huid, Credentials.call, hroot.euid] using hroot.rgid
  | some hgroup hgid hgpos =>
    cases huser with
    | none huser huid =>
      refine iff_of_false (fun h => h.euid ?_) fun h => h (Or.inl huser)
      simp [idCalls, hgid, huid, Credentials.call, hroot.euid]
    | some huser huid hupos =>
      refine iff_of_true ?_ (by simp [huser, hgroup])
      have hrun : Runs.run Credentials.call cred (idCalls opt) =
          ⟨opt.uid, opt.uid, opt.uid, opt.gid, opt.gid, opt.gid, [opt.gid]⟩ := by
        simp [idCalls, hgid, huid, Credentials.call, hroot.euid]
      rw [hrun]
      exact ⟨hupos, hupos, hupos, hgpos, hgpos, hgpos, by simpa using hgpos.symm⟩

end Privileges

/-- The privileges of the process, for every command line and every system with which it comes as
far as its loop. All sockets are bound with the ids it was started with. A port below 1024 or a
group needs an effective user id 0 at the start. If root has started it, the warning is printed
exactly if an id of root is left in the loop; and if none is left, no call that sets ids gets one
back, and no port below 1024 can be bound any more. -/
theorem startup_privileges (k : Kernel) {sys : System} (hsys : ProperIds sys) {curl : UrlParser}
    {argv : List CString} {cred : Credentials} {opt : CommandLine.Options} {p : Process}
    (h : main k sys curl argv cred = .ok (opt, p)) :
    (∀ c ∈ p.calls, c.1.isBind = true → c.2 = cred) ∧
    (0 < opt.listenPort ∧ opt.listenPort < 1024 ∨ opt.group ≠ none → cred.euid = 0) ∧
    (cred.Root → (rootWarning ∈ (parsed sys argv cred).printed ↔ ¬p.cred.Unprivileged)) ∧
    (cred.Root → rootWarning ∉ (parsed sys argv cred).printed →
      ∀ es, Runs.Meets Credentials.call (fun c e => c.permits e = true) p.cred es →
        (Runs.run Credentials.call p.cred es).Unprivileged ∧
          ∀ port, 0 < port → port < 1024 →
            (Runs.run Credentials.call p.cred es).mayBind port = false) := by
  obtain ⟨hsuccess, hopt, hplan⟩ := main_eq_ok h
  obtain ⟨hcred, hcalls, hpermitted⟩ := performed hplan
  obtain ⟨hbind, hgroups⟩ := permitted_plan hpermitted
  rw [effect_plan] at hcred
  obtain ⟨huser, hgroup, hwarned, hnonneg, hle⟩ := parsed_spec hsys hsuccess
  rw [hopt] at huser hgroup hwarned hnonneg hle
  refine ⟨fun c hc hisBind => ?_, ?_, fun hroot => ?_, fun hroot hnot es hes => ?_⟩
  · rw [hcalls, List.nil_append] at hc
    exact cred_of_isBind k curl opt hc hisBind
  · rintro (⟨hpos, hlow⟩ | hgiven)
    · have hport : (listenAddress k opt).port = opt.listenPort := by
        simp only [listenAddress]
        omega
      simp only [Credentials.mayBind, decide_eq_true_eq] at hbind
      rcases hbind with hzero | hhigh | heuid
      · omega
      · omega
      · exact heuid
    · cases hgroup with
      | none hnone => exact absurd hnone hgiven
      | some _ hgid _ => exact hgroups hgid
  · rw [hcred, unprivileged_iff hroot huser hgroup, not_not, hwarned]
    exact and_iff_right hroot.ruid
  · have hun : p.cred.Unprivileged := by
      rw [hcred, unprivileged_iff hroot huser hgroup]
      exact fun hnone => hnot (hwarned.2 ⟨hroot.ruid, hnone⟩)
    exact ⟨hun.run hes, fun port hpos hlow => (hun.run hes).not_mayBind hpos hlow⟩

/-- A system that lets every call succeed that the ids permit. -/
def permissiveKernel : Kernel where
  error c call := if call.permitted c then none else some (1, "Operation not permitted".toList)
  refuses c call h := by simp [h]
  family _ := .inet
  ipstr listenAddr := listenAddr
  curlVersion := some []

/-- Every name of a user and of a group has the number 65534. -/
def nobodySystem : System :=
  { posixSystem with getpwnam := fun _ => some 65534, getgrnam := fun _ => some 65534 }

/-- The process is started by root. -/
def rootCredentials : Credentials :=
  ⟨0, 0, 0, 0, 0, 0, [0]⟩

/-- Root starts the process on port 53 for another user and group. It reaches its loop without an
id of root. -/
theorem startup_privileges_nobody :
    let argv := words ["https_dns_proxy", "-p", "53", "-u", "nobody", "-g", "nogroup"]
    ∃ opt p, main permissiveKernel nobodySystem plainParser argv rootCredentials = .ok (opt, p) ∧
      (∀ c ∈ p.calls, c.1.isBind = true → c.2 = rootCredentials) ∧ p.cred.Unprivileged ∧
      p.cred.mayBind 53 = false := by
  intro argv
  have hsys : ProperIds nobodySystem :=
    ⟨fun _ h => absurd (Option.some.inj h) (by decide),
      fun _ h => absurd (Option.some.inj h) (by decide)⟩
  have hroot : rootCredentials.Root := ⟨rfl, rfl, rfl, rfl, rfl, rfl⟩
  have hok : (main permissiveKernel nobodySystem plainParser argv rootCredentials).isOk = true := by
    decide +kernel
  have hquiet : rootWarning ∉ (parsed nobodySystem argv rootCredentials).printed := by
    decide +kernel
  cases hmain : main permissiveKernel nobodySystem plainParser argv rootCredentials with
  | error e =>
    rw [hmain] at hok
    cases hok
  | ok r =>
    obtain ⟨opt, p⟩ := r
    obtain ⟨hbinds, -, -, hkept⟩ := startup_privileges permissiveKernel hsys hmain
    obtain ⟨hun, hports⟩ := hkept hroot hquiet [] trivial
    exact ⟨opt, p, rfl, hbinds, hun, hports 53 (by decide) (by decide)⟩

end Startup

end HttpsDnsProxy
