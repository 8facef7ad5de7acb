import SrxProbe.Deploy.Confinement

/-!
# The program keeps to its command line

Whatever `main` is called with, a flow that it sends was agreed to, fits a rule of the command
line, and goes to the target that was given, unless a URL was given or the target is read as
something else in a URL.
-/

namespace SrxProbe.Deploy

open SrxProbe.Lib SrxProbe.Generators

/-! ## Names -/

/-- A hostname that denotes a target resolves as it does. -/
theorem resolves_of_denotes (r : Resolver) {hostname target : PyStr} {address : UInt32}
    (hdenotes : Denotes hostname target) (h : r.resolves hostname address) :
    r.resolves target address := by
  unfold Denotes at hdenotes
  split at hdenotes
  · rename_i ip hip
    exact r.sameAddress hostname target ip address hdenotes hip h
  · refine r.ignoresCase hostname target address ?_ h
    rw [hdenotes, lower_lower]

/-! ## Targets in URLs -/

/-- The URL of the root of a plain host. -/
def rootOf {target : PyStr} (h : IsPlainHost target) : PlainUrl target where
  scheme := "http".toList
  port := none
  path := "/".toList
  http := by decide
  plain := h
  range := nofun
  slash := rfl
  visible := by simp
  noFragment := by simp

theorem text_rootOf {target : PyStr} (h : IsPlainHost target) :
    (rootOf h).text = rootUrl target := by
  unfold PlainUrl.text PlainUrl.suffix rootOf rootUrl
  rw [Option.elim_none, List.append_nil]
  rfl

/-- The URL that a crawl is made for is read as its endpoint. -/
theorem staysOn_of_targetUrl {target path scheme url : PyStr} {port : Option Int}
    (hscheme : scheme ∈ httpSchemes) (hzone : ¬ HasBracketZone target)
    (h : targetUrl target path scheme (portValue port) = .ok url) {u : SplitResult}
    (hu : validateUrl url = .ok u) : StaysOn target path scheme port u := by
  obtain ⟨hpath, host, suffix, -, hhost, hsuffix, rfl, -⟩ := of_targetUrl h
  have hacc := accepted_of_validateUrl hu
  unfold targetHost at hhost
  split at hhost
  · rename_i ip zone hip
    cases hhost
    refine staysOn_of_v6 hscheme hpath hsuffix hacc hip ?_
    rintro z rfl hbracket
    exact hzone ⟨ip, z, hip, hbracket⟩
  · rename_i ip hip
    cases hhost
    refine staysOn_of_hostname hscheme hpath hsuffix hacc (isHostname_str_v4 ip) ?_
    unfold Denotes
    rw [hip, lower_str_v4]
    exact IpAddress.ipAddress_str hip
  · rename_i hip
    split at hhost
    · rename_i hname
      cases hhost
      refine staysOn_of_hostname hscheme hpath hsuffix hacc hname ?_
      unfold Denotes
      rw [hip]
    · cases hhost

/-! ## What the parser has read -/

section parse

variable {specs : List OptionSpec} {attrs attrs' : Attrs} {tokens argv : List PyStr} {a : Namespace}

/-- Every attribute is as it was, or the value of a token. -/
theorem bindOptions_attr (h : bindOptions specs attrs tokens = .ok attrs') (d : PyStr) :
    attrs' d = attrs d ∨ ∃ option ∈ specs, option.dest = d ∧ ∃ token v,
      option.convert token = some v ∧ attrs' d = some v := by
  induction attrs, tokens using bindOptions.induct with
  | case1 attrs =>
      cases h
      exact .inl rfl
  | case2 attrs flag => cases h
  | case3 attrs flag token rest ih =>
      unfold bindOptions at h
      obtain ⟨option, hfind, h⟩ := bind_ok_iff.mp h
      obtain ⟨v, hv, h⟩ := bind_ok_iff.mp h
      rcases ih option v h with hsame | hother
      · by_cases hd : d = option.dest
        · subst hd
          rw [update_self] at hsame
          exact .inr ⟨option, List.mem_of_find?_eq_some (orRaise_ok_iff.mp hfind), rfl, token, v,
            orRaise_ok_iff.mp hv, hsame⟩
        · rw [update_of_ne _ _ hd] at hsame
          exact .inl hsame
      · exact .inr hother

/-- Options of one command have different attributes. -/
theorem nodup_dest (command : Command) : ((options command).map OptionSpec.dest).Nodup := by
  cases command <;> decide

/-- No option of a command is the target. -/
theorem target_apart (command : Command) :
    "target".toList ∉ (options command).map OptionSpec.dest := by
  cases command <;> decide

/-- Reading the command lines of `make_cmd` is a way to do what the documentation says. -/
theorem argparse_readArgs : Argparse readArgs where
  target := by
    intro argv command attrs h
    obtain ⟨⟨front, command', rest⟩, -, h⟩ := bind_ok_iff.mp h
    obtain ⟨htarget, h⟩ := seq_ok_iff.mp h
    obtain ⟨bound, hbind, h⟩ := bind_ok_iff.mp h
    cases h
    -- no option of the command sets the target again
    have hkept : attrs "target".toList = front "target".toList := by
      rcases bindOptions_attr hbind "target".toList with hsame | ⟨option, hoption, hdest, -⟩
      · rw [hsame, setAttrs_of_notMem]
        unfold defaults
        rw [List.map_map]
        exact target_apart command
      · exact absurd (List.mem_map.mpr ⟨option, hoption, hdest⟩) (target_apart command)
    rw [hkept]
    obtain ⟨target, hread⟩ := Option.ne_none_iff_exists'.mp (raiseIf_ok_iff.mp htarget)
    obtain ⟨v, hv, hstr⟩ := Option.bind_eq_some_iff.mp hread
    cases v with
    | str s => exact ⟨s, hv⟩
    | _ => cases hstr
  bound := by
    intro argv command attrs h option hoption
    obtain ⟨⟨front, command', rest⟩, -, h⟩ := bind_ok_iff.mp h
    obtain ⟨-, h⟩ := seq_ok_iff.mp h
    obtain ⟨bound, hbind, h⟩ := bind_ok_iff.mp h
    cases h
    rcases bindOptions_attr hbind option.dest with hsame |
      ⟨option', hoption', hdest, token, v, hconvert, hv⟩
    · refine .inl (hsame.trans (setAttrs_of_mem ?_ (List.mem_map.mpr ⟨option, hoption, rfl⟩)))
      unfold defaults
      rw [List.map_map]
      exact nodup_dest command
    · obtain rfl := List.inj_on_of_nodup_map (nodup_dest command) hoption' hoption hdest
      exact .inr ⟨token, v, hconvert, hv⟩

theorem preflight_eq {command : Command} (h : preflight command attrs = .ok a) :
    a.cmd = command ∧ a.attrs = attrs ∧ validateArgs a command = .ok () := by
  unfold preflight at h
  obtain ⟨values, -, h⟩ := bind_ok_iff.mp h
  obtain ⟨limits, -, h⟩ := bind_ok_iff.mp h
  simp only at h
  obtain ⟨hvalid, h⟩ := seq_ok_iff.mp h
  split at h
  · obtain ⟨_, -, h⟩ := bind_ok_iff.mp h
    cases h
    exact ⟨rfl, rfl, hvalid⟩
  · cases h
    exact ⟨rfl, rfl, hvalid⟩

theorem ok_of_reported {α : Type} {x : Except PyErr α} {v : α} (h : reported x = .ok v) :
    x = .ok v := by
  unfold reported Except.mapError at h
  cases x with
  | error e => cases h
  | ok w =>
      cases h
      rfl

/-- What a namespace of the parser has. -/
structure Parsed (a : Namespace) : Prop where
  target : ∃ target, a.attrs "target".toList = some (.str target)
  scheme : a.cmd = .crawl → txt (a.given "scheme") ∈ httpSchemes
  valid : validateArgs a a.cmd = .ok ()

theorem Argparse.parsed {read : List PyStr → Except CliExit (Command × Attrs)}
    (hread : Argparse read) (h : parseWith read argv = .ok a) : Parsed a := by
  obtain ⟨⟨command, attrs⟩, hattrs, h⟩ := bind_ok_iff.mp h
  obtain ⟨rfl, rfl, hvalid⟩ := preflight_eq (ok_of_reported h)
  refine ⟨hread.target _ _ _ hattrs, ?_, hvalid⟩
  intro hcrawl
  have hoption : choiceOption "scheme" ["http", "https"] "http" ∈ options a.cmd := by
    rw [hcrawl]
    simp [options]
  unfold Namespace.given
  rw [show destOf "scheme".toList = "scheme".toList from rfl]
  rcases hread.bound _ _ _ hattrs _ hoption with hdefault | ⟨token, v, hconvert, hv⟩
  · rw [show a.attrs "scheme".toList = _ from hdefault]
    decide
  · rw [show a.attrs "scheme".toList = _ from hv]
    unfold OptionSpec.convert choiceOption at hconvert
    simp only at hconvert
    split at hconvert
    · rename_i hmem
      cases hconvert
      exact hmem
    · cases hconvert

end parse

/-! ## Confinement -/

/-- Nothing has to be agreed to, or it was, in front of the run or at the prompt. -/
def Consents (m : Machine) (a : Namespace) : Prop :=
  a.cmd ∉ aggressive ∨ (a.given "yes").truthy = true ∨
    ∃ answer ∈ m.answer, m.lower (strip answer) = "yes".toList

/-- The source that crafted packets have: the one given, or the one routed to the target. -/
structure SourceOf (m : Machine) (a : Namespace) (src : PyStr) : Prop where
  given : ∀ s, a.attrs "src".toList = some (.str s) → src = s
  routed : a.attrs "src".toList = some .none → a.cmd ∈ crafted →
    m.route (txt (a.given "target")) = .ok src

/-- The rules of the command go to the target itself. -/
def Direct (target : PyStr) (given : String → PyValue) (command : Command) : Prop :=
  match command with
  | .crawl => ¬ HasBracketZone target ∧ (given "port" = .none → ¬ IsV6 target)
  | .scan => IsOneHost target
  | .wrk => (given "url").truthy = false ∧ IsPlainHost target
  | .all => IsPlainHost target ∧ IsOneHost target
  | _ => True

section confinement

variable {m : Machine} {net : Network} {argv : List PyStr} {a a' : Namespace} {f : Flow}
  {action : Action}

theorem performed_permits {target : PyStr} (htarget : a.attrs "target".toList = some (.str target))
    (htakes : TakesTarget target a.cmd) (hmem : action ∈ performed m.toHost a)
    (hsends : action.Sends net f) : Permits m.toHost net (a.rules net a.cmd) f := by
  unfold performed at hmem
  split at hmem
  · rename_i hall
    cases hdo : doAll m.toHost a with
    | error e =>
        rw [hdo] at hmem
        cases hmem
    | ok actions =>
        rw [hdo] at hmem
        obtain ⟨-, hdo⟩ := seq_ok_iff.mp hdo
        obtain ⟨workloads, hbuild, hdo⟩ := bind_ok_iff.mp hdo
        obtain ⟨-, hdo⟩ := seq_ok_iff.mp hdo
        cases hdo
        obtain ⟨w, hw, haction⟩ := List.mem_filterMap.mp hmem
        obtain ⟨⟨duration, -, rfl⟩, -⟩ := buildAllWorkloads_eq hbuild
        have hsuite : TakesTarget target w.func :=
          ⟨fun _ => htakes.operand (by simp [hall]), fun _ => htakes.device (by simp [hall])⟩
        obtain ⟨rule, hrule, hallows⟩ := validated_permits ((kept_suite hw).1 ▸ htarget) hsuite
          (toOption_eq_some_iff.mp haction) hsends
        refine ⟨rule, ?_, hallows⟩
        rw [hall, ← suite_rules net a duration]
        exact List.mem_flatMap.mpr ⟨w, hw, hrule⟩
  · exact validated_permits htarget htakes (toOption_eq_some_iff.mp (Option.mem_toList.mp hmem))
      hsends

/-- The source is the one thing that `main` adds to what the parser has read. -/
theorem withSource_ok (h : withSource m a = .ok a') :
    a'.cmd = a.cmd ∧ SourceOf m a (txt (a'.given "src")) ∧
      ∀ d, d ≠ "src".toList → a'.attrs d = a.attrs d := by
  unfold withSource at h
  split at h
  · rename_i hnone
    split at h
    · simp only at h
      split at h
      · rename_i src hroute
        cases h
        have hgiven : txt (Namespace.given
            ⟨a.cmd, update a.attrs "src".toList (some (.str src)), a.limits⟩ "src") = src := by
          unfold Namespace.given
          rw [show destOf "src".toList = "src".toList from rfl]
          simp only [update_self]
          rfl
        refine ⟨rfl, ⟨?_, ?_⟩, fun d hd => update_of_ne _ _ hd⟩
        · intro s hs
          cases hnone.symm.trans hs
        · intro _ _
          rw [hgiven, ← hroute]
          congr 1
          unfold txt Namespace.given
          rw [show destOf "target".toList = "target".toList from rfl]
          cases a.attrs "target".toList <;> rfl
      · split at h <;> cases h
    · rename_i hcrafted
      cases h
      refine ⟨rfl, ⟨?_, fun _ hmem => absurd hmem hcrafted⟩, fun d _ => rfl⟩
      intro s hs
      cases hnone.symm.trans hs
  · rename_i hother
    cases h
    refine ⟨rfl, ⟨?_, fun hnone => absurd hnone hother⟩, fun d _ => rfl⟩
    intro s hs
    unfold Namespace.given
    rw [show destOf "src".toList = "src".toList from rfl, hs]
    rfl

/-- The rules are read off what the parser has read, but for the source. -/
theorem rules_of_source (hcmd : a'.cmd = a.cmd)
    (hattrs : ∀ d, d ≠ "src".toList → a'.attrs d = a.attrs d) : a'.rules net a'.cmd =
      commandRules net (txt (a.given "target")) (txt (a'.given "src")) a.given a.cmd := by
  have hgiven : ∀ name ∈ ruleNames a.cmd, a'.given name = a.given name := by
    intro name hname
    have hapart : ∀ command, ∀ name ∈ ruleNames command, destOf name.toList ≠ "src".toList := by
      intro command
      cases command <;> decide
    unfold Namespace.given
    rw [hattrs _ (hapart a.cmd name hname)]
  have htarget : a'.given "target" = a.given "target" := by
    unfold Namespace.given
    rw [hattrs _ (by decide)]
  unfold Namespace.rules
  rw [hcmd, htarget]
  exact commandRules_congr hgiven

/-- The host that a crawl connects to resolves as the target does. -/
theorem crawl_dst {r : Resolver} {target path scheme : PyStr} {port : PyValue} {rule : Rule}
    (hdirect : ¬ HasBracketZone target ∧ (port = .none → ¬ IsV6 target))
    (hscheme : scheme ∈ httpSchemes) (hrule : rule ∈ crawlRules target path scheme port)
    {address : UInt32} (h : r.resolves rule.host address) : r.resolves target address := by
  unfold crawlRules at hrule
  split at hrule
  · cases hrule
  · rename_i u hparsed
    obtain ⟨url, hurl, hu⟩ := bind_ok_iff.mp hparsed
    obtain ⟨⟨host, n⟩, hconnection, rfl⟩ := List.mem_map.mp hrule
    have hconnection := Option.mem_toList.mp hconnection
    -- the port is none or a number
    obtain ⟨port', rfl⟩ : ∃ port', port = portValue port' := by
      unfold targetUrl at hurl
      obtain ⟨-, hurl⟩ := seq_ok_iff.mp hurl
      obtain ⟨-, hurl⟩ := seq_ok_iff.mp hurl
      obtain ⟨_, -, hurl⟩ := bind_ok_iff.mp hurl
      obtain ⟨suffix, hsuffix, -⟩ := bind_ok_iff.mp hurl
      cases port with
      | none => exact ⟨none, rfl⟩
      | int n => exact ⟨some n, rfl⟩
      | _ => cases hsuffix
    have hstays := staysOn_of_targetUrl hscheme hdirect.1 hurl hu
    obtain ⟨u', hu', hclose, hcolon⟩ := colon_mem_iff hscheme hurl
    obtain rfl := Except.ok.inj (hu.symm.trans hu')
    have hhost : host = u.hostname := by
      unfold crawlConnection at hconnection
      rw [hstays.port] at hconnection
      cases port' with
      | some n' =>
          cases hconnection
          exact unbracket_of_notMem hclose
      | none =>
          have hno : ':' ∉ u.hostname := fun hc => hdirect.2 rfl (hcolon.mp hc)
          have heq : getHostport (defaultPort u.scheme) u.hostname none =
              some (u.hostname, defaultPort u.scheme) := (getHostport_none_iff hclose).mpr hno
          exact congrArg Prod.fst (Option.some.inj (hconnection.symm.trans heq))
    subst hhost
    exact resolves_of_denotes r hstays.host h

/-- The rules of the suite name its target, but for the load. -/
theorem host_suiteRules {target src : PyStr} {rule : Rule} (h : rule ∈ suiteRules net target src) :
    rule ∈ dnsRules target "probe.lab".toList ∨ rule ∈ loadRules net (rootUrl target) ∨
      rule.host = target := by
  unfold suiteRules at h
  simp only [List.append_assoc, List.mem_append, List.mem_cons, List.not_mem_nil, or_false,
    or_self] at h
  rcases h with rfl | h | (rfl | rfl) | rfl | (rfl | rfl | rfl) |
    (rfl | rfl | rfl | rfl | rfl) | h | rfl
  · exact .inr (.inr rfl)
  · exact .inl h
  all_goals first | exact .inr (.inr rfl) | exact .inr (.inl h)

/-- What a rule of the target is for, the target resolves to; for a scan it has to be one host. -/
theorem takes_self {rule : Rule} {target : PyStr} {address : UInt32}
    (hone : rule.tool = some .nmap → IsOneHost target) (hhost : rule.host = target)
    (h : net.takes rule.tool rule.host address) : net.resolves target address := by
  rw [hhost] at h
  by_cases htool : rule.tool = some .nmap
  · unfold Network.takes at h
    rw [if_pos htool] at h
    exact net.oneHost (hone htool) h
  · rwa [net.takes_of_ne htool] at h

/-- The load of the root of a plain host goes to that host. -/
theorem load_dst {target : PyStr} {rule : Rule} {address : UInt32} (hplain : IsPlainHost target)
    (hrule : rule ∈ loadRules net (rootUrl target)) (h : net.takes rule.tool rule.host address) :
    net.resolves target address := by
  obtain ⟨⟨name, port⟩, hendpoint, rfl⟩ := List.mem_map.mp hrule
  rw [← text_rootOf hplain] at hendpoint
  obtain ⟨rfl, -⟩ := net.endpoint_eq (rootOf hplain) (Option.mem_toList.mp hendpoint)
  exact takes_self (by rintro ⟨⟩) rfl h

/-- Every rule of a command that goes to its target directly is for what the target resolves
to. -/
theorem direct_dst {target src : PyStr} {given : String → PyValue} {command : Command}
    {rule : Rule} (hdirect : Direct target given command)
    (hscheme : command = .crawl → txt (given "scheme") ∈ httpSchemes)
    (hrule : rule ∈ commandRules net target src given command) {address : UInt32}
    (h : net.takes rule.tool rule.host address) : net.resolves target address := by
  have hdns : ∀ qname, rule ∈ dnsRules target qname → net.resolves target address := by
    intro qname hrule
    unfold dnsRules at hrule
    split at hrule
    · obtain rfl := List.mem_singleton.mp hrule
      exact takes_self (by rintro ⟨⟩) rfl h
    · cases hrule
  cases command with
  | crawl =>
      have htool : rule.tool ≠ some .nmap := by
        unfold commandRules crawlRules at hrule
        simp only at hrule
        split at hrule
        · cases hrule
        · obtain ⟨_, -, rfl⟩ := List.mem_map.mp hrule
          exact nofun
      rw [net.takes_of_ne htool] at h
      exact crawl_dst hdirect (hscheme rfl) hrule h
  | dns => exact hdns _ hrule
  | flood =>
      obtain ⟨kind, -, rfl⟩ := List.mem_map.mp hrule
      cases kind <;> exact takes_self (by rintro ⟨⟩) rfl h
  | wrk =>
      obtain ⟨hurl, hplain⟩ := hdirect
      unfold commandRules at hrule
      simp only at hrule
      rw [hurl, if_neg Bool.false_ne_true] at hrule
      exact load_dst hplain hrule h
  | scan =>
      obtain rfl := List.mem_singleton.mp hrule
      exact takes_self (fun _ => hdirect) rfl h
  | all =>
      obtain ⟨hplain, hone⟩ := hdirect
      rcases host_suiteRules hrule with hrule | hrule | hhost
      · exact hdns _ hrule
      · exact load_dst hplain hrule h
      · exact takes_self (fun _ => hone) hhost h
  | http | handshake | eicar | gtube | malformed | badcsum | ttl | frag | deny | iperf =>
      obtain rfl := List.mem_singleton.mp hrule
      exact takes_self (by rintro ⟨⟩) rfl h

theorem consents_of_confirm (hcmd : a'.cmd = a.cmd)
    (hyes : a'.attrs "yes".toList = a.attrs "yes".toList)
    (h : confirm m a'.cmd (((a'.attrs "yes".toList).getD .none).truthy) = .ok ()) :
    Consents m a := by
  unfold confirm at h
  split at h
  · rename_i hfree
    rcases hfree with hfree | hassume
    · exact .inl (hcmd ▸ hfree)
    · exact .inr (.inl (by rwa [hyes] at hassume))
  · cases hanswer : m.answer with
    | none =>
        rw [hanswer] at h
        cases h
    | some answer =>
        rw [hanswer] at h
        have hsaid := raiseIf_ok_iff.mp h
        exact .inr (.inr ⟨answer, hanswer, not_not.mp hsaid⟩)

/-- What the program sends was agreed to, and a rule of what it has read permits it. -/
theorem permits_of_emits {read : List PyStr → Except CliExit (Command × Attrs)}
    (hread : Argparse read) (h : Emits net read m argv f) :
    ∃ a target src, parseWith read argv = .ok a ∧
      a.attrs "target".toList = some (.str target) ∧ SourceOf m a src ∧ Consents m a ∧
      (TakesTarget target a.cmd →
        Permits m.toHost net (commandRules net target src a.given a.cmd) f) := by
  obtain ⟨actions, hmain, action, hmem, hsends⟩ := h
  obtain ⟨a, hparse, hmain⟩ := bind_ok_iff.mp hmain
  obtain ⟨a', hsource, hmain⟩ := bind_ok_iff.mp hmain
  obtain ⟨hconfirm, hmain⟩ := seq_ok_iff.mp hmain
  cases hmain
  have hparse : parseWith read argv = .ok a := by
    cases hparsed : parseWith read argv with
    | error e =>
        rw [hparsed] at hparse
        cases hparse
    | ok a₀ =>
        rw [hparsed] at hparse
        cases hparse
        rfl
  obtain ⟨target, htarget⟩ := (hread.parsed hparse).target
  obtain ⟨hcmd, hsrc, hattrs⟩ := withSource_ok hsource
  have hgiven : txt (a.given "target") = target := txt_given "target" (attrStr_ok htarget) rfl
  have htarget' : a'.attrs "target".toList = some (.str target) := by
    rw [hattrs "target".toList (by decide), htarget]
  refine ⟨a, target, txt (a'.given "src"), hparse, htarget, hsrc,
    consents_of_confirm hcmd (hattrs _ (by decide)) hconfirm, ?_⟩
  intro htakes
  have hpermits := performed_permits htarget' (hcmd ▸ htakes) hmem hsends
  rwa [rules_of_source hcmd hattrs, hgiven] at hpermits

end confinement

end SrxProbe.Deploy
