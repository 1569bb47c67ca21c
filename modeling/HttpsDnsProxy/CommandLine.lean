import HttpsDnsProxy.ResolverUrl
import HttpsDnsProxy.Strtoul

/-!
# The command line

`options_parse_args` goes through what `getopt` makes of the arguments, stores each option, and
checks the options once all are stored. A number is read by `parse_int`, which gives -1 for a text
it rejects and leaves it to the check of the option to reject that.

`getopt`, the user database and `open` are parameters (`System`). What is printed is kept with the
result.

* `parseInt_of_nonneg`, `eq_nil_or_literal_of_parseInt` : the texts that `parse_int` accepts are the
  empty one and the literals, of which some negative ones wrap to a small value;
* `field_parseOptions` : an option is what its last occurrence says;
* `optionsParseArgs_success` : options that are accepted have passed their checks;
* `checkOptions_of_documented` : numbers in the documented ranges pass them.

`numericOptions_iff` : the numbers of accepted options mean what they say exactly if none of their
texts is empty or negative.
-/

namespace HttpsDnsProxy

namespace CommandLine

/-- `struct Options`. An absent string is NULL. -/
structure Options where
  listenAddr : CString
  listenPort : ℤ
  tcpClientLimit : ℤ
  logfile : Option CString
  logfd : ℤ
  loglevel : ℤ
  daemonize : Bool
  user : Option CString
  group : Option CString
  uid : ℕ
  gid : ℕ
  bootstrapDns : CString
  bootstrapDnsPollingInterval : ℤ
  ipv4 : Bool
  dscp : ℤ
  resolverUrl : Option CString
  curlProxy : Option CString
  sourceAddr : Option CString
  useHttpVersion : ℤ
  maxIdleTime : ℤ
  connLossTime : ℤ
  statsInterval : ℤ
  caInfo : Option CString
  flightRecorderSize : ℤ
  deriving DecidableEq, Repr

/-- `enum OptionsParseResult`. -/
inductive OptionsParseResult where
  | success
  | help
  | version
  | optionError
  | parsingError
  deriving DecidableEq, Repr

/-- What `options_parse_args` returns, with the options it leaves and the lines it has printed. -/
structure Parsed where
  result : OptionsParseResult
  opt : Options
  printed : List CString
  deriving DecidableEq, Repr

/-- A return before the end of `options_parse_args`. -/
structure Refusal where
  result : OptionsParseResult
  refused : result ≠ .success
  opt : Options
  printed : List CString

/-- What the caller gets from such a return. -/
def Refusal.parsed (refusal : Refusal) : Parsed :=
  ⟨refusal.result, refusal.opt, refusal.printed⟩

/-- What `options_parse_args` asks of the system. `getopt` gives the options of an argument vector
in order, each with its argument, and `?` for one it does not know. -/
structure System where
  getopt : List CString → List (Char × CString)
  /-- `pw_uid`. -/
  getpwnam : CString → Option ℕ
  /-- `gr_gid`. -/
  getgrnam : CString → Option ℕ
  getuid : ℕ
  openLogfile : CString → ℤ

/-! ## The functions -/

/-- `DEFAULT_HTTP_VERSION`. -/
def defaultHttpVersion : ℤ := 2

/-- `MAX_TCP_CLIENTS`. -/
def maxTcpClients : ℤ := 200

/-- `options_init`. -/
def optionsInit : Options where
  listenAddr := "127.0.0.1".toList
  listenPort := 5053
  tcpClientLimit := 20
  logfile := some "-".toList
  logfd := 1
  loglevel := 3
  daemonize := false
  user := none
  group := none
  uid := 2 ^ 32 - 1
  gid := 2 ^ 32 - 1
  bootstrapDns :=
    "8.8.8.8,1.1.1.1,8.8.4.4,1.0.0.1,145.100.185.15,145.100.185.16,185.49.141.37".toList
  bootstrapDnsPollingInterval := 120
  ipv4 := false
  dscp := 0
  resolverUrl := some "https://dns.google/dns-query".toList
  curlProxy := none
  sourceAddr := none
  useHttpVersion := defaultHttpVersion
  maxIdleTime := 118
  connLossTime := 15
  statsInterval := 0
  caInfo := none
  flightRecorderSize := 0

/-- `parse_int`. -/
def parseInt (str : CString) : ℤ :=
  let (value, endptr) := CStrings.strtoul str
  if endptr ≠ [] ∨ value > 2 ^ 31 - 1 then -1 else value

/-- The options `x` and `q`. -/
def setHttpVersion (opt : Options) (version : ℤ) : Except Refusal Options :=
  if opt.useHttpVersion = defaultHttpVersion then .ok { opt with useHttpVersion := version }
  else
    let current := if opt.useHttpVersion = 1 then "1.1" else "3"
    .error ⟨.optionError, by decide, opt,
      ["HTTP version already set to: HTTP/".toList ++ current.toList ++ "\n".toList]⟩

/-- The `switch` over the option `c`. -/
def parseOption (opt : Options) (c : Char) (optarg : CString) : Except Refusal Options :=
  match c with
  | 'a' => .ok { opt with listenAddr := optarg }
  | 'c' => .ok { opt with dscp := parseInt optarg }
  | 'p' => .ok { opt with listenPort := parseInt optarg }
  | 'T' => .ok { opt with tcpClientLimit := parseInt optarg }
  | 'd' => .ok { opt with daemonize := true }
  | 'u' => .ok { opt with user := some optarg }
  | 'g' => .ok { opt with group := some optarg }
  | 'b' => .ok { opt with bootstrapDns := optarg }
  | 'i' => .ok { opt with bootstrapDnsPollingInterval := parseInt optarg }
  | '4' => .ok { opt with ipv4 := true }
  | 'r' => .ok { opt with resolverUrl := some optarg }
  | 't' => .ok { opt with curlProxy := some optarg }
  | 'l' => .ok { opt with logfile := some optarg }
  | 'v' => .ok (if opt.loglevel ≠ 0 then { opt with loglevel := opt.loglevel - 1 } else opt)
  | 'x' => setHttpVersion opt 1
  | 'q' => setHttpVersion opt 3
  | 'm' => .ok { opt with maxIdleTime := parseInt optarg }
  | 'L' => .ok { opt with connLossTime := parseInt optarg }
  | 's' => .ok { opt with statsInterval := parseInt optarg }
  | 'S' => .ok { opt with sourceAddr := some optarg }
  | 'C' => .ok { opt with caInfo := some optarg }
  | 'F' => .ok { opt with flightRecorderSize := parseInt optarg }
  | 'h' => .error ⟨.help, by decide, opt, []⟩
  | 'V' => .error ⟨.version, by decide, opt, []⟩
  -- `e` is in the string for `getopt` and has no case
  | _ => .error ⟨.parsingError, by decide, opt, []⟩

/-- The loop over the options. -/
def parseOptions (opt : Options) : List (Char × CString) → Except Refusal Options
  | [] => .ok opt
  | (c, optarg) :: given => parseOption opt c optarg >>= fun opt => parseOptions opt given

/-- The options while they are checked, with what has been printed. -/
structure Checked where
  opt : Options
  printed : List CString
  deriving DecidableEq, Repr

/-- An option is refused. -/
def Checked.refuse (s : Checked) (message : CString) : Except Refusal Checked :=
  .error ⟨.optionError, by decide, s.opt, s.printed ++ [message]⟩

/-- A check that the value of an option is between two bounds. -/
def checkRange (field : Options → ℤ) (low high : ℤ) (message : String) (s : Checked) :
    Except Refusal Checked :=
  if field s.opt < low ∨ field s.opt > high then s.refuse message.toList else .ok s

/-- The number of a user or group that is given is looked up and stored. The one of root is
refused. -/
def setId (name : Option CString) (lookup : CString → Option ℕ) (kind : String)
    (store : ℕ → Options) (s : Checked) : Except Refusal Checked :=
  match name with
  | none => .ok s
  | some name =>
    match lookup name with
    | none | some 0 => s.refuse (kind.toList ++ " (".toList ++ name ++ ") invalid.\n".toList)
    | some id => .ok { s with opt := store id }

section Checks

variable (sys : System) (s : Checked)

/-- `-u` : the user to run as. -/
def setUser : Except Refusal Checked :=
  setId s.opt.user sys.getpwnam "Username" (fun uid => { s.opt with uid := uid }) s

/-- `-g` : the group to run as. -/
def setGroup : Except Refusal Checked :=
  setId s.opt.group sys.getgrnam "Group" (fun gid => { s.opt with gid := gid }) s

/-- The range of `-c`, before it is shifted. -/
def checkDscp : Except Refusal Checked :=
  checkRange Options.dscp 0 63 "DSCP code must be between 0 and 63.\n" s

/-- `opt->dscp <<= 2`. -/
def shiftDscp : Checked :=
  { s with opt := { s.opt with dscp := s.opt.dscp * 4 } }

/-- The warning for root, unless both a user and a group are given. -/
def warnRoot : Checked :=
  if sys.getuid = 0 ∧ (s.opt.user = none ∨ s.opt.group = none) then
    { s with
      printed := s.printed ++ [("----------------------------\n" ++
        "WARNING: Running as root without dropping privileges is NOT recommended.\n" ++
        "----------------------------\n").toList] }
  else s

/-- The log file is opened, and a failure only printed. -/
def openLog : Checked :=
  match s.opt.logfile with
  | none => s
  | some logfile =>
    if logfile = "-".toList then s
    else
      let logfd := sys.openLogfile logfile
      let s := { s with opt := { s.opt with logfd := logfd } }
      if logfd ≤ 0 then
        { s with
          printed := s.printed ++
            ["Could not open logfile '".toList ++ logfile ++ "' for writing.\n".toList] }
      else s

/-- `-r` has to be a `https://` address. -/
def checkResolverUrl : Except Refusal Checked :=
  match s.opt.resolverUrl with
  | none => s.refuse "Resolver prefix ((null)) must be a https:// address.\n".toList
  | some resolverUrl =>
    if acceptsResolverUrl resolverUrl then .ok s
    else
      s.refuse ("Resolver prefix (".toList ++ resolverUrl ++
        ") must be a https:// address.\n".toList)

/-- The range of `-i`. -/
def checkPollingInterval : Except Refusal Checked :=
  checkRange Options.bootstrapDnsPollingInterval 5 3600
    "DNS servers polling interval must be between 5 and 3600.\n" s

/-- The range of `-m`. -/
def checkMaxIdleTime : Except Refusal Checked :=
  checkRange Options.maxIdleTime 0 3600 "Maximum idle time must be between 0 and 3600.\n" s

/-- The range of `-L`. -/
def checkConnLossTime : Except Refusal Checked :=
  checkRange Options.connLossTime 5 60 "Connection loss time must be between 5 and 60.\n" s

/-- The range of `-s`. -/
def checkStatsInterval : Except Refusal Checked :=
  checkRange Options.statsInterval 0 3600 "Statistic interval must be between 0 and 3600.\n" s

/-- 0 turns the flight recorder off, so it is accepted too. -/
def checkFlightRecorderSize : Except Refusal Checked :=
  if s.opt.flightRecorderSize ≠ 0 ∧
      (s.opt.flightRecorderSize < 100 ∨ s.opt.flightRecorderSize > 100000) then
    s.refuse "Flight recorder limit must be between 100 and 100000.\n".toList
  else .ok s

/-- The range of `-p`. -/
def checkListenPort : Except Refusal Checked :=
  checkRange Options.listenPort 0 65535 "Listen port must be between 0 and 65535.\n" s

/-- The range of `-T`. -/
def checkTcpClientLimit : Except Refusal Checked :=
  checkRange Options.tcpClientLimit 0 maxTcpClients
    "TCP client limit must be between 0 and 200.\n" s

/-- The checks, once the options are stored. -/
def checkOptions : Except Refusal Checked := do
  let s ← setUser sys s
  let s ← setGroup sys s
  let s ← checkDscp s
  let s := openLog sys (warnRoot sys (shiftDscp s))
  let s ← checkResolverUrl s
  let s ← checkPollingInterval s
  let s ← checkMaxIdleTime s
  let s ← checkConnLossTime s
  let s ← checkStatsInterval s
  let s ← checkFlightRecorderSize s
  let s ← checkListenPort s
  checkTcpClientLimit s

end Checks

/-- `options_parse_args`. -/
def optionsParseArgs (sys : System) (opt : Options) (argv : List CString) : Parsed :=
  match parseOptions opt (sys.getopt argv) >>= fun opt => checkOptions sys ⟨opt, []⟩ with
  | .error refusal => refusal.parsed
  | .ok s => ⟨.success, s.opt, s.printed⟩

/-! ## Numeric options -/

/-- The options that take a number. -/
inductive NumericOption where
  | dscp
  | listenPort
  | tcpClientLimit
  | pollingInterval
  | maxIdleTime
  | connLossTime
  | statsInterval
  | flightRecorderSize
  deriving DecidableEq, Repr

namespace NumericOption

/-- The letter of the option. -/
def letter : NumericOption → Char
  | dscp => 'c'
  | listenPort => 'p'
  | tcpClientLimit => 'T'
  | pollingInterval => 'i'
  | maxIdleTime => 'm'
  | connLossTime => 'L'
  | statsInterval => 's'
  | flightRecorderSize => 'F'

/-- Where its number is stored. -/
def field : NumericOption → Options → ℤ
  | dscp => Options.dscp
  | listenPort => Options.listenPort
  | tcpClientLimit => Options.tcpClientLimit
  | pollingInterval => Options.bootstrapDnsPollingInterval
  | maxIdleTime => Options.maxIdleTime
  | connLossTime => Options.connLossTime
  | statsInterval => Options.statsInterval
  | flightRecorderSize => Options.flightRecorderSize

/-- The range that `options_show_usage` documents : the least and the largest value, and 0 where it
turns the option off. The port has the range of its error message. -/
def Documented : NumericOption → ℤ → Prop
  | dscp, v => 0 ≤ v ∧ v ≤ 63
  | listenPort, v => 0 ≤ v ∧ v ≤ 65535
  | tcpClientLimit, v => v = 0 ∨ 1 ≤ v ∧ v ≤ maxTcpClients
  | pollingInterval, v => 5 ≤ v ∧ v ≤ 3600
  | maxIdleTime, v => 0 ≤ v ∧ v ≤ 3600
  | connLossTime, v => 5 ≤ v ∧ v ≤ 60
  | statsInterval, v => v = 0 ∨ 1 ≤ v ∧ v ≤ 3600
  | flightRecorderSize, v => v = 0 ∨ 100 ≤ v ∧ v ≤ 100000

/-- The factor between the value and the field. -/
def scale : NumericOption → ℤ
  | dscp => 4
  | _ => 1

end NumericOption

/-- The argument of the last option `c` that is given. -/
def lastText (c : Char) (given : List (Char × CString)) : Option CString :=
  (given.reverse.find? fun o => o.1 = c).map Prod.snd

/-- The numeric options mean what they say : the last text of each is a literal, its value is in
the documented range, and the field has that value. -/
def MeansWhatItSays (sys : System) (opt : Options) (argv : List CString) : Prop :=
  ∀ (o : NumericOption) (t : CString), lastText o.letter (sys.getopt argv) = some t →
    ∃ l : CStrings.DecimalLiteral, l.text = t ∧ o.Documented l.value ∧
      o.field (optionsParseArgs sys opt argv).opt = o.scale * l.value

/-! ## Texts of numbers -/

/-- A literal that is not negative is read as its value, unless that is too large. -/
theorem parseInt_of_nonneg {l : CStrings.DecimalLiteral} (h : 0 ≤ l.value) :
    parseInt l.text = if l.value > 2 ^ 31 - 1 then -1 else l.value := by
  have hend : (CStrings.strtoul l.text).2 = [] := by rw [CStrings.strtoul_text]
  have hvalue := CStrings.strtoul_of_nonneg h
  unfold parseInt
  simp only [hend, hvalue, ne_eq, not_true_eq_false, false_or]
  split_ifs <;> omega

/-- What `parse_int` accepts is empty or a literal. -/
theorem eq_nil_or_literal_of_parseInt {t : CString} (h : 0 ≤ parseInt t) :
    t = [] ∨ ∃ l : CStrings.DecimalLiteral, l.text = t := by
  refine CStrings.eq_nil_or_literal ?_
  by_contra hend
  unfold parseInt at h
  simp [hend] at h

/-! ## Storing -/

theorem exists_of_bind_eq_ok {ε α β : Type} {x : Except ε α} {f : α → Except ε β} {b : β}
    (h : x >>= f = .ok b) : ∃ a, x = .ok a ∧ f a = .ok b := by
  cases x with
  | error e => cases h
  | ok a => exact ⟨a, rfl, h⟩

theorem field_setHttpVersion (o : NumericOption) {opt opt' : Options} {version : ℤ}
    (h : setHttpVersion opt version = .ok opt') : o.field opt' = o.field opt := by
  unfold setHttpVersion at h
  split_ifs at h
  obtain rfl := Except.ok.inj h
  cases o <;> rfl

/-- The option `c` and no other sets its field. -/
theorem field_parseOption (o : NumericOption) {opt opt' : Options} {c : Char} {optarg : CString}
    (h : parseOption opt c optarg = .ok opt') :
    o.field opt' = if c = o.letter then parseInt optarg else o.field opt := by
  unfold parseOption at h
  split at h
  case h_14 =>
    -- `v` has a field of its own to change, or none
    obtain rfl := Except.ok.inj h
    by_cases hlevel : opt.loglevel ≠ 0
    · rw [if_pos hlevel]
      cases o <;> rfl
    · rw [if_neg hlevel]
      cases o <;> rfl
  case h_15 | h_16 =>
    rw [field_setHttpVersion o h]
    cases o <;> rfl
  all_goals cases h
  all_goals cases o <;> rfl

/-- The argument of the last option, seen from the first. -/
theorem lastText_cons (c : Char) (o : Char × CString) (given : List (Char × CString)) :
    lastText c (o :: given) =
      (lastText c given).or (if o.1 = c then some o.2 else none) := by
  unfold lastText
  rw [List.reverse_cons, List.find?_append, Option.map_or]
  congr 1
  by_cases h : o.1 = c <;> simp [h]

/-- An option that is given is what its last occurrence says. -/
theorem field_parseOptions (o : NumericOption) :
    ∀ (given : List (Char × CString)) {opt opt' : Options}, parseOptions opt given = .ok opt' →
      o.field opt' = ((lastText o.letter given).map parseInt).getD (o.field opt)
  | [], opt, opt', h => by
    obtain rfl := Except.ok.inj h
    rfl
  | (c, optarg) :: given, opt, opt', h => by
    obtain ⟨opt₁, hfirst, hrest⟩ := exists_of_bind_eq_ok h
    rw [field_parseOptions o given hrest, field_parseOption o hfirst, lastText_cons]
    cases lastText o.letter given with
    | some t => rfl
    | none => by_cases hc : c = o.letter <;> simp [hc]

/-! ## Checking -/

theorem checkRange_eq_ok {f : Options → ℤ} {low high : ℤ} {message : String} {s s' : Checked}
    (h : checkRange f low high message s = .ok s') : s' = s ∧ low ≤ f s.opt ∧ f s.opt ≤ high := by
  unfold checkRange at h
  split_ifs at h with hrange
  · cases h
  · obtain rfl := Except.ok.inj h
    exact ⟨rfl, by omega, by omega⟩

theorem checkFlightRecorderSize_eq_ok {s s' : Checked} (h : checkFlightRecorderSize s = .ok s') :
    s' = s ∧ (s.opt.flightRecorderSize = 0 ∨
      100 ≤ s.opt.flightRecorderSize ∧ s.opt.flightRecorderSize ≤ 100000) := by
  unfold checkFlightRecorderSize at h
  split_ifs at h with hrange
  · cases h
  · obtain rfl := Except.ok.inj h
    exact ⟨rfl, by omega⟩

theorem checkResolverUrl_eq_ok {s s' : Checked} (h : checkResolverUrl s = .ok s') :
    s' = s ∧ ∃ resolverUrl, s.opt.resolverUrl = some resolverUrl ∧
      acceptsResolverUrl resolverUrl = true := by
  unfold checkResolverUrl at h
  split at h
  · cases h
  next resolverUrl hurl =>
  split_ifs at h with haccepts
  · obtain rfl := Except.ok.inj h
    exact ⟨rfl, resolverUrl, hurl, haccepts⟩
  · cases h

theorem field_setId (o : NumericOption) {name : Option CString} {lookup : CString → Option ℕ}
    {kind : String} {store : ℕ → Options} {s s' : Checked}
    (hstore : ∀ id, o.field (store id) = o.field s.opt)
    (h : setId name lookup kind store s = .ok s') : o.field s'.opt = o.field s.opt := by
  unfold setId at h
  split at h
  · obtain rfl := Except.ok.inj h
    rfl
  split at h
  · cases h
  · cases h
  · obtain rfl := Except.ok.inj h
    exact hstore _

/-- Of the options, opening the log changes the descriptor only. -/
theorem opt_openLog (sys : System) (s : Checked) :
    ∃ logfd, (openLog sys s).opt = { s.opt with logfd := logfd } := by
  unfold openLog
  split
  · exact ⟨s.opt.logfd, rfl⟩
  · simp only
    split_ifs
    · exact ⟨s.opt.logfd, rfl⟩
    · exact ⟨_, rfl⟩
    · exact ⟨_, rfl⟩

theorem opt_warnRoot (sys : System) (s : Checked) : (warnRoot sys s).opt = s.opt := by
  unfold warnRoot
  split_ifs <;> rfl

theorem field_shiftDscp (o : NumericOption) (s : Checked) :
    o.field (shiftDscp s).opt = o.scale * o.field s.opt := by
  cases o with
  | dscp => exact Int.mul_comm _ _
  | _ => exact (Int.one_mul _).symm

/-- Between the check of `dscp` and the others, the numbers change by their scale. -/
theorem field_opened (o : NumericOption) (sys : System) (s : Checked) :
    o.field (openLog sys (warnRoot sys (shiftDscp s))).opt = o.scale * o.field s.opt := by
  obtain ⟨logfd, hopen⟩ := opt_openLog sys (warnRoot sys (shiftDscp s))
  rw [hopen, opt_warnRoot, ← field_shiftDscp]
  cases o <;> rfl

/-- The checks hold the options to their documented ranges, and of the numbers change `dscp`
only. -/
theorem checkOptions_eq_ok {sys : System} {s s' : Checked} (h : checkOptions sys s = .ok s') :
    (∀ o : NumericOption,
        o.Documented (o.field s.opt) ∧ o.field s'.opt = o.scale * o.field s.opt) ∧
      ∃ resolverUrl, s'.opt.resolverUrl = some resolverUrl ∧
        acceptsResolverUrl resolverUrl = true := by
  unfold checkOptions at h
  obtain ⟨s₁, huser, h⟩ := exists_of_bind_eq_ok h
  obtain ⟨s₂, hgroup, h⟩ := exists_of_bind_eq_ok h
  obtain ⟨s₃, hdscp, h⟩ := exists_of_bind_eq_ok h
  obtain ⟨s₄, hurl, h⟩ := exists_of_bind_eq_ok h
  obtain ⟨s₅, hpolling, h⟩ := exists_of_bind_eq_ok h
  obtain ⟨s₆, hidle, h⟩ := exists_of_bind_eq_ok h
  obtain ⟨s₇, hloss, h⟩ := exists_of_bind_eq_ok h
  obtain ⟨s₈, hstats, h⟩ := exists_of_bind_eq_ok h
  obtain ⟨s₉, hrecorder, h⟩ := exists_of_bind_eq_ok h
  obtain ⟨s₁₀, hport, hlimit⟩ := exists_of_bind_eq_ok h
  obtain ⟨rfl, hlimit⟩ := checkRange_eq_ok hlimit
  obtain ⟨rfl, hport⟩ := checkRange_eq_ok hport
  obtain ⟨rfl, hrecorder⟩ := checkFlightRecorderSize_eq_ok hrecorder
  obtain ⟨rfl, hstats⟩ := checkRange_eq_ok hstats
  obtain ⟨rfl, hloss⟩ := checkRange_eq_ok hloss
  obtain ⟨rfl, hidle⟩ := checkRange_eq_ok hidle
  obtain ⟨rfl, hpolling⟩ := checkRange_eq_ok hpolling
  obtain ⟨rfl, haccepts⟩ := checkResolverUrl_eq_ok hurl
  obtain ⟨rfl, hdscp⟩ := checkRange_eq_ok hdscp
  -- the fields checked last are those of the options stored, but for the shift
  have hstored : ∀ o : NumericOption, o.field s₃.opt = o.field s.opt := fun o =>
    (field_setId o (fun _ => by cases o <;> rfl) hgroup).trans
      (field_setId o (fun _ => by cases o <;> rfl) huser)
  have hfield : ∀ o : NumericOption, o.field (openLog sys (warnRoot sys (shiftDscp s₃))).opt =
      o.scale * o.field s.opt := fun o => by
    rw [field_opened, hstored]
  refine ⟨fun o => ⟨?_, hfield o⟩, haccepts⟩
  have hvalue := hfield o
  have hbefore := hstored o
  unfold maxTcpClients at hlimit
  cases o <;> simp only [NumericOption.field, NumericOption.scale] at hvalue hbefore <;>
    simp only [NumericOption.Documented, NumericOption.field, maxTcpClients] <;> omega

theorem checkRange_of_mem {f : Options → ℤ} {low high : ℤ} {message : String} {s : Checked}
    (h : low ≤ f s.opt ∧ f s.opt ≤ high) : checkRange f low high message s = .ok s :=
  if_neg (by omega)

theorem checkResolverUrl_of_accepts {s : Checked} {resolverUrl : CString}
    (hurl : s.opt.resolverUrl = some resolverUrl) (h : acceptsResolverUrl resolverUrl = true) :
    checkResolverUrl s = .ok s := by
  unfold checkResolverUrl
  rw [hurl]
  exact if_pos h

/-- Options without a user and a group pass the checks if their numbers are in the documented
ranges and the resolver URL is one. -/
theorem checkOptions_of_documented (sys : System) {s : Checked} {resolverUrl : CString}
    (huser : s.opt.user = none) (hgroup : s.opt.group = none)
    (hurl : s.opt.resolverUrl = some resolverUrl) (haccepts : acceptsResolverUrl resolverUrl = true)
    (hrange : ∀ o : NumericOption, o.Documented (o.field s.opt)) :
    checkOptions sys s = .ok (openLog sys (warnRoot sys (shiftDscp s))) := by
  have hsetUser : setUser sys s = .ok s := by simp only [setUser, setId, huser]
  have hsetGroup : setGroup sys s = .ok s := by simp only [setGroup, setId, hgroup]
  have hdscp : checkDscp s = .ok s := checkRange_of_mem (hrange .dscp)
  have hfield := fun o => field_opened o sys s
  obtain ⟨logfd, hopen⟩ := opt_openLog sys (warnRoot sys (shiftDscp s))
  have hurl' : (openLog sys (warnRoot sys (shiftDscp s))).opt.resolverUrl = some resolverUrl := by
    rw [hopen, opt_warnRoot]
    exact hurl
  simp only [checkOptions, hsetUser, hsetGroup, hdscp, bind, Except.bind]
  generalize openLog sys (warnRoot sys (shiftDscp s)) = s' at hfield hurl' ⊢
  -- the scale of the numbers checked now is 1
  have hsame : ∀ o : NumericOption, o ≠ .dscp → o.Documented (o.field s'.opt) := by
    intro o ho
    rw [hfield]
    cases o with
    | dscp => exact absurd rfl ho
    | _ => simpa only [NumericOption.scale, Int.one_mul] using hrange _
  have hpolling : checkPollingInterval s' = .ok s' :=
    checkRange_of_mem (hsame .pollingInterval (by decide))
  have hidle : checkMaxIdleTime s' = .ok s' := checkRange_of_mem (hsame .maxIdleTime (by decide))
  have hloss : checkConnLossTime s' = .ok s' := checkRange_of_mem (hsame .connLossTime (by decide))
  have hstats : checkStatsInterval s' = .ok s' := by
    have h := hsame .statsInterval (by decide)
    simp only [NumericOption.Documented, NumericOption.field] at h
    exact checkRange_of_mem (by omega)
  have hrecorder : checkFlightRecorderSize s' = .ok s' := by
    have h := hsame .flightRecorderSize (by decide)
    simp only [NumericOption.Documented, NumericOption.field] at h
    exact if_neg (by omega)
  have hport : checkListenPort s' = .ok s' := checkRange_of_mem (hsame .listenPort (by decide))
  have hlimit : checkTcpClientLimit s' = .ok s' := by
    have h := hsame .tcpClientLimit (by decide)
    simp only [NumericOption.Documented, NumericOption.field, maxTcpClients] at h
    exact checkRange_of_mem (by unfold maxTcpClients; omega)
  simp only [checkResolverUrl_of_accepts hurl' haccepts, hpolling, hidle, hloss, hstats, hrecorder,
    hport, hlimit]

/-- Options that are accepted were all stored, and have passed their checks. -/
theorem optionsParseArgs_success {sys : System} {opt : Options} {argv : List CString}
    (h : (optionsParseArgs sys opt argv).result = .success) :
    ∃ opt', parseOptions opt (sys.getopt argv) = .ok opt' ∧
      (∀ o : NumericOption, o.Documented (o.field opt') ∧
        o.field (optionsParseArgs sys opt argv).opt = o.scale * o.field opt') ∧
      ∃ resolverUrl, (optionsParseArgs sys opt argv).opt.resolverUrl = some resolverUrl ∧
        acceptsResolverUrl resolverUrl = true := by
  unfold optionsParseArgs at h ⊢
  cases hok : parseOptions opt (sys.getopt argv) >>= fun opt => checkOptions sys ⟨opt, []⟩ with
  | error refusal =>
    rw [hok] at h
    exact absurd h refusal.refused
  | ok s =>
    obtain ⟨opt', hparse, hcheck⟩ := exists_of_bind_eq_ok hok
    exact ⟨opt', hparse, checkOptions_eq_ok hcheck⟩

/-! ## What the numbers mean -/

/-- An option that is given has the value of its last text, which is in range. -/
theorem documented_lastText {sys : System} {opt : Options} {argv : List CString}
    (h : (optionsParseArgs sys opt argv).result = .success) {o : NumericOption} {t : CString}
    (ht : lastText o.letter (sys.getopt argv) = some t) :
    o.Documented (parseInt t) ∧
      o.field (optionsParseArgs sys opt argv).opt = o.scale * parseInt t := by
  obtain ⟨opt', hparse, hpassed, -⟩ := optionsParseArgs_success h
  have hfield : o.field opt' = parseInt t := by
    rw [field_parseOptions o _ hparse, ht]
    rfl
  rw [← hfield]
  exact hpassed o

theorem NumericOption.Documented.nonneg {o : NumericOption} {v : ℤ} (h : o.Documented v) :
    0 ≤ v := by
  cases o <;> simp only [NumericOption.Documented] at h <;> omega

/-- The numbers on the command line, for every argument vector that `options_parse_args` accepts,
from any options : the last text of each numeric option that is given is a decimal integer literal,
its value is in the documented range, and the option has that value (`dscp` shifted by two bits),
exactly if none of these texts is empty or the literal of a negative number. -/
theorem numericOptions_iff (sys : System) (opt : Options) (argv : List CString)
    (h : (optionsParseArgs sys opt argv).result = .success) :
    MeansWhatItSays sys opt argv ↔
      ∀ (o : NumericOption) (t : CString), lastText o.letter (sys.getopt argv) = some t →
        t ≠ [] ∧ ∀ l : CStrings.DecimalLiteral, l.text = t → 0 ≤ l.value := by
  refine ⟨fun hmeans o t ht => ?_, fun hcond o t ht => ?_⟩
  · obtain ⟨l, rfl, hrange, -⟩ := hmeans o t ht
    refine ⟨l.text_ne_nil, fun l' hl' => ?_⟩
    rw [l'.value_eq, hl', ← l.value_eq]
    exact hrange.nonneg
  · obtain ⟨hne, hnonneg⟩ := hcond o t ht
    obtain ⟨hrange, hfield⟩ := documented_lastText h ht
    rcases eq_nil_or_literal_of_parseInt hrange.nonneg with hnil | ⟨l, rfl⟩
    · exact absurd hnil hne
    · have hvalue : parseInt l.text = l.value := by
        have hread := parseInt_of_nonneg (hnonneg l rfl)
        have hrange' := hrange.nonneg
        split_ifs at hread
        · omega
        · exact hread
      rw [hvalue] at hrange hfield
      exact ⟨l, rfl, hrange, hfield⟩

/-! ## What `main` gets -/

/-- The defaults with other numbers are accepted if these are in range. -/
theorem optionsParseArgs_of_documented (sys : System) {argv : List CString} {opt : Options}
    (hparse : parseOptions optionsInit (sys.getopt argv) = .ok opt)
    (huser : opt.user = none) (hgroup : opt.group = none)
    (hurl : opt.resolverUrl = optionsInit.resolverUrl)
    (hrange : ∀ o : NumericOption, o.Documented (o.field opt)) :
    let s := openLog sys (warnRoot sys (shiftDscp ⟨opt, []⟩))
    optionsParseArgs sys optionsInit argv = ⟨.success, s.opt, s.printed⟩ := by
  intro s
  have hchecked : checkOptions sys ⟨opt, []⟩ = .ok s :=
    checkOptions_of_documented sys huser hgroup hurl (by decide +kernel) hrange
  have hbind : (parseOptions optionsInit (sys.getopt argv) >>= fun opt =>
      checkOptions sys ⟨opt, []⟩) = .ok s := by
    rw [hparse]
    exact hchecked
  unfold optionsParseArgs
  rw [hbind]

theorem documented_optionsInit (o : NumericOption) : o.Documented (o.field optionsInit) := by
  cases o with
  | tcpClientLimit => exact Or.inr ⟨by decide, by decide⟩
  | statsInterval | flightRecorderSize => exact Or.inl rfl
  | _ => exact ⟨by decide, by decide⟩

/-! ## Command lines -/

/-- The options that `options_parse_args` gives to `getopt`. -/
def optstring : CString :=
  "a:c:p:T:du:g:b:i:4r:e:t:l:vxqm:L:s:S:C:F:hV".toList

/-- Whether the option `c` takes an argument, absent if there is no such option. -/
def takesArgument (c : Char) : CString → Option Bool
  | [] => none
  | o :: opts =>
    if o = c ∧ c ≠ ':' then some (opts.head? = some ':') else takesArgument c opts

/-- The options in one argument behind its `-`, with the arguments left. -/
def clusterOptions : CString → List CString → List (Char × CString) × List CString
  | [], args => ([], args)
  | c :: cs, args =>
    match takesArgument c optstring with
    | some true =>
      match cs, args with
      | [], [] => ([('?', [])], [])
      | [], optarg :: args => ([(c, optarg)], args)
      | optarg, args => ([(c, optarg)], args)
    | some false =>
      let (opts, args) := clusterOptions cs args
      ((c, []) :: opts, args)
    | none =>
      let (opts, args) := clusterOptions cs args
      (('?', []) :: opts, args)

/-- The options up to the first argument that is not one, or `--`. Each round takes an argument. -/
def getoptFrom : ℕ → List CString → List (Char × CString)
  | n + 1, ('-' :: c :: cs) :: args =>
    if c :: cs = ['-'] then []
    else
      let (opts, args) := clusterOptions (c :: cs) args
      opts ++ getoptFrom n args
  | _, _ => []

/-- A system with the `getopt` of POSIX, no users and groups, not run by root. -/
def posixSystem : System where
  getopt argv := getoptFrom argv.length (argv.drop 1)
  getpwnam _ := none
  getgrnam _ := none
  getuid := 1000
  openLogfile _ := 3

/-- The words of a command line. -/
def words (args : List String) : List CString :=
  args.map String.toList

/-- A port and a code point that mean what they say. -/
theorem numericOptions_port :
    let argv := words ["https_dns_proxy", "-p", " +5353", "-c7", "-c", "46"]
    let parsed := optionsParseArgs posixSystem optionsInit argv
    parsed.result = .success ∧ parsed.opt.listenPort = 5353 ∧ parsed.opt.dscp = 184 ∧
      MeansWhatItSays posixSystem optionsInit argv := by
  intro argv parsed
  have hgiven : posixSystem.getopt argv =
      [('p', " +5353".toList), ('c', "7".toList), ('c', "46".toList)] := by decide +kernel
  have hport : parseInt " +5353".toList = 5353 := by decide +kernel
  have hdscp : parseInt "46".toList = 46 := by decide +kernel
  have hstore : ∀ opt, parseOptions opt (posixSystem.getopt argv) =
      .ok { opt with listenPort := 5353, dscp := 46 } := by
    intro opt
    rw [hgiven, ← hport, ← hdscp]
    rfl
  have hrange : ∀ o : NumericOption,
      o.Documented (o.field { optionsInit with listenPort := 5353, dscp := 46 }) := fun o => by
    cases o with
    | dscp | listenPort => exact ⟨by decide, by decide⟩
    | _ => exact documented_optionsInit _
  have hsuccess : parsed.result = .success :=
    congrArg Parsed.result (optionsParseArgs_of_documented _ (hstore _) rfl rfl rfl hrange)
  have hfield₁ : NumericOption.listenPort.field parsed.opt = 5353 := by
    rw [(documented_lastText hsuccess (by rw [hgiven]; rfl)).2, hport]
    rfl
  have hfield₂ : NumericOption.dscp.field parsed.opt = 184 := by
    rw [(documented_lastText hsuccess (by rw [hgiven]; rfl)).2, hdscp]
    rfl
  refine ⟨hsuccess, hfield₁, hfield₂, ?_⟩
  refine (numericOptions_iff posixSystem optionsInit argv hsuccess).2 fun o t ht => ?_
  have hlast : lastText o.letter (posixSystem.getopt argv) ∈
      [none, some "46".toList, some " +5353".toList] := by
    rw [hgiven]
    cases o <;> decide
  rw [ht] at hlast
  obtain rfl | rfl : t = "46".toList ∨ t = " +5353".toList := by simpa using hlast
  all_goals
    refine ⟨by decide, fun l hl => ?_⟩
    rw [l.value_eq, hl]
    decide +kernel

/-- A port alone is accepted if its number is one. -/
theorem listenPort_of_getopt {sys : System} {argv : List CString} {t : CString}
    (hgiven : sys.getopt argv = [('p', t)]) (hrange : 0 ≤ parseInt t ∧ parseInt t ≤ 65535) :
    let parsed := optionsParseArgs sys optionsInit argv
    parsed.result = .success ∧ parsed.opt.listenPort = parseInt t := by
  intro parsed
  have hstore : ∀ opt, parseOptions opt (sys.getopt argv) =
      .ok { opt with listenPort := parseInt t } := by
    intro opt
    rw [hgiven]
    rfl
  have hall : ∀ o : NumericOption,
      o.Documented (o.field { optionsInit with listenPort := parseInt t }) := fun o => by
    cases o with
    | listenPort => exact hrange
    | _ => exact documented_optionsInit _
  have hsuccess : parsed.result = .success :=
    congrArg Parsed.result (optionsParseArgs_of_documented sys (hstore _) rfl rfl rfl hall)
  have ht : lastText NumericOption.listenPort.letter (sys.getopt argv) = some t := by
    rw [hgiven]
    rfl
  exact ⟨hsuccess, (documented_lastText hsuccess ht).2.trans (Int.one_mul _)⟩

/-- An empty text is read as 0, and a negative number as what it wraps to. -/
theorem numericOptions_wrap :
    (let argv := words ["https_dns_proxy", "-p", ""]
      let parsed := optionsParseArgs posixSystem optionsInit argv
      parsed.result = .success ∧ parsed.opt.listenPort = 0 ∧
        ¬MeansWhatItSays posixSystem optionsInit argv) ∧
      (let argv := words ["https_dns_proxy", "-p", "-18446744073709551615"]
      let parsed := optionsParseArgs posixSystem optionsInit argv
      parsed.result = .success ∧ parsed.opt.listenPort = 1 ∧
        ¬MeansWhatItSays posixSystem optionsInit argv) := by
  refine ⟨?_, ?_⟩
  · intro argv
    have hgiven : posixSystem.getopt argv = [('p', [])] := by decide +kernel
    have hport : parseInt [] = 0 := rfl
    obtain ⟨hsuccess, hfield⟩ := listenPort_of_getopt hgiven (by rw [hport]; decide)
    refine ⟨hsuccess, hfield.trans hport, fun h => ?_⟩
    obtain ⟨l, hl, -⟩ := h .listenPort [] (by rw [hgiven]; rfl)
    exact l.text_ne_nil hl
  · intro argv
    have hgiven : posixSystem.getopt argv = [('p', "-18446744073709551615".toList)] := by
      decide +kernel
    have hport : parseInt "-18446744073709551615".toList = 1 := by decide +kernel
    obtain ⟨hsuccess, hfield⟩ := listenPort_of_getopt hgiven (by rw [hport]; decide)
    refine ⟨hsuccess, hfield.trans hport, fun h => ?_⟩
    obtain ⟨l, hl, hrange, -⟩ := h .listenPort "-18446744073709551615".toList (by
      rw [hgiven]; rfl)
    have hvalue : l.value < 0 := by
      rw [l.value_eq, hl]
      decide +kernel
    exact absurd hrange.nonneg (not_le.2 hvalue)

end CommandLine

end HttpsDnsProxy
