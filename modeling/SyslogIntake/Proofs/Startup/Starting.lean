import SyslogIntake.Startup.Launch

/-!
# Starting with settings that were accepted

The checks of the settings, the choice of an acceptor, the set-up of a detector and the binding of
a source each have their own idea of which settings are usable.  The first three agree.  The last
one knows a largest number of permits, which no check knows: settings with more connections than
that are accepted, and bring the program down where a source would begin to listen.

**Results.**

* `Settings.tls_of_check`, `Settings.limits_of_check` : what settings that were accepted have;
* `Host.isSome_of_acceptor` : there is an acceptor where it is of use;
* `Source.bind_of_detector` : what comes of binding a source that has a detector;
* `Source.bind_checked` : settings that were accepted have a detector, and only the number of
  connections can bring the program down;
* `Source.bind_crowded` : it does;
* `Host.start_checked` : the same for the start of the program.
-/

namespace SyslogIntake

/-- A transport that is of no use without a certificate may use one. -/
theorem Transport.mayUseTls_of_requiresTls
    {transport : Transport}
    (h : transport.requiresTls = true) :
    transport.mayUseTls = true := by
  rw [mayUseTls, h, Bool.true_or]

namespace Settings

variable {tree : FileTree} {settings : Settings}

theorem check_eq_ok_iff :
    settings.check tree = .ok () ↔
      settings.checkTransport tree = .ok () ∧ settings.checkLimits = .ok () := by
  rw [check]
  cases settings.checkTransport tree with
  | error problem =>
      constructor
      · intro h
        cases h
      · rintro ⟨h, -⟩
        cases h
  | ok done =>
      exact (and_iff_right rfl).symm

/-- Settings that were accepted have a certificate if their transport is of no use without one. -/
theorem tls_of_check
    (h : settings.check tree = .ok ())
    (hneeds : settings.transport.requiresTls = true) :
    settings.tls.isSome = true := by
  obtain ⟨htransport, -⟩ := check_eq_ok_iff.1 h
  cases htls : settings.tls with
  | some tls =>
      rfl
  | none =>
      rw [checkTransport, htls] at htransport
      simp only [hneeds, if_true] at htransport
      cases htransport

/-- No limit of settings that were accepted is zero. -/
theorem limits_of_check
    (h : settings.check tree = .ok ()) :
    ∀ limit ∈ settings.limits, limit.2 ≠ 0 := by
  obtain ⟨-, hlimits⟩ := check_eq_ok_iff.1 h
  rw [checkLimits] at hlimits
  split at hlimits
  · cases hlimits
  · rename_i hnone
    intro limit hlimit hzero
    refine List.find?_eq_none.1 hnone limit hlimit ?_
    rw [hzero]
    rfl

theorem connections_of_check
    (h : settings.check tree = .ok ()) :
    0 < settings.maxConnections.toNat := by
  have hlimit := limits_of_check h (.connections, settings.maxConnections) (by simp [limits])
  refine Nat.pos_of_ne_zero ?_
  intro hzero
  exact hlimit (UInt64.toNat_inj.1 hzero)

end Settings

/-- There is an acceptor just for settings with a certificate that is of use. -/
theorem Host.isSome_of_acceptor
    {host : Host} {settings : Settings} {looked : List Entry} {acceptor : Option Tls.Acceptor}
    (h : host.acceptor settings = (looked, .ok acceptor)) :
    acceptor.isSome = (settings.tls.isSome && settings.transport.mayUseTls) := by
  rw [Host.acceptor] at h
  cases htls : settings.tls with
  | none =>
      rw [htls] at h
      obtain rfl := Except.ok.inj (Prod.mk.inj h).2
      rfl
  | some tls =>
      simp only [htls] at h
      cases hmay : settings.transport.mayUseTls with
      | false =>
          rw [hmay, if_neg Bool.false_ne_true] at h
          obtain rfl := Except.ok.inj (Prod.mk.inj h).2
          rfl
      | true =>
          rw [hmay, if_pos rfl] at h
          split at h
          · cases (Prod.mk.inj h).2
          · obtain rfl := Except.ok.inj (Prod.mk.inj h).2
            rfl

namespace Source

variable {settings : Settings} {acceptor : Option Tls.Acceptor} {d : Detector}

/-- Settings that were accepted have a detector, with an acceptor where one is of use. -/
theorem detector_of_check
    {tree : FileTree}
    (hchecked : settings.check tree = .ok ())
    (hacceptor : acceptor.isSome = (settings.tls.isSome && settings.transport.mayUseTls)) :
    ∃ d, Detector.ofSettings settings acceptor = .ok d := by
  refine Detector.ofSettings_isOk settings acceptor ?_
  intro hneeds
  rw [hacceptor, Settings.tls_of_check hchecked hneeds,
    Transport.mayUseTls_of_requiresTls hneeds, Bool.and_true]

section Binding

variable (hd : Detector.ofSettings settings acceptor = .ok d)
include hd

theorem bind_of_report
    (report : String) :
    bind settings acceptor (.error report) = .fault (.io report) := by
  simp only [bind, hd]

/-- A source that has a detector, an endpoint and not too many permits is bound. -/
theorem bind_of_le
    (h : settings.maxConnections.toNat ≤ mostPermits)
    (endpoint : Endpoint) :
    ∃ source, bind settings acceptor (.ok endpoint) = .source source d ∧
      source.endpoint = endpoint ∧ source.free = settings.maxConnections.toNat := by
  simp only [bind, hd, if_neg (Nat.not_lt.2 h)]
  exact ⟨_, rfl, rfl, rfl⟩

theorem bind_eq_crash_iff
    (endpoint : Endpoint) :
    bind settings acceptor (.ok endpoint) = .crash ↔
      mostPermits < settings.maxConnections.toNat := by
  constructor
  · intro hcrash
    refine Nat.lt_of_not_le ?_
    intro hfits
    obtain ⟨source, hbound, -⟩ := bind_of_le hd hfits endpoint
    rw [hbound] at hcrash
    cases hcrash
  · intro hmany
    simp only [bind, hd, if_pos hmany]

end Binding

/--
Settings that were accepted have a detector.  A source for them is bound, with room for a
connection, or it gets no endpoint, and this is the fault; but with more connections than there can
be permits it brings the program down instead of being bound, and only then.  The acceptor that the
program sets up is there just where it is of use.
-/
theorem bind_checked
    {tree : FileTree} {settings : Settings}
    (hchecked : settings.check tree = .ok ()) :
    (∀ acceptor : Option Tls.Acceptor,
        acceptor.isSome = (settings.tls.isSome && settings.transport.mayUseTls) →
        ∃ d, Detector.ofSettings settings acceptor = .ok d ∧
          (∀ report, bind settings acceptor (.error report) = .fault (.io report)) ∧
          ∀ endpoint,
            (settings.maxConnections.toNat ≤ mostPermits →
              ∃ source, bind settings acceptor (.ok endpoint) = .source source d ∧
                source.endpoint = endpoint ∧
                source.free = settings.maxConnections.toNat ∧ 0 < source.free) ∧
            (bind settings acceptor (.ok endpoint) = .crash ↔
              mostPermits < settings.maxConnections.toNat)) ∧
      ∀ (host : Host) (looked : List Entry) (acceptor : Option Tls.Acceptor),
        host.acceptor settings = (looked, .ok acceptor) →
          acceptor.isSome = (settings.tls.isSome && settings.transport.mayUseTls) := by
  constructor
  · intro acceptor hacceptor
    obtain ⟨d, hd⟩ := detector_of_check hchecked hacceptor
    refine ⟨d, hd, bind_of_report hd, ?_⟩
    intro endpoint
    refine ⟨?_, bind_eq_crash_iff hd endpoint⟩
    intro hfits
    obtain ⟨source, hbound, hendpoint, hfree⟩ := bind_of_le hd hfits endpoint
    refine ⟨source, hbound, hendpoint, hfree, ?_⟩
    rw [hfree]
    exact Settings.connections_of_check hchecked
  · intro host looked acceptor h
    exact Host.isSome_of_acceptor h

/-- Settings with a key and a certificate, no demand on peers, and as many permits as can be. -/
def settled : Settings :=
  { Settings.default with
    transport := .proxiedTls
    tls := some ⟨"key", "cert", none, .none⟩
    maxConnections := 2305843009213693951 }

/-- A host with the key and the certificate of the settings, and every endpoint to be had. -/
def settledHost : Host where
  tree := (FileTree.empty.put ["key"] (.file [])).put ["cert"] (.file [])
  environment := []
  understand := fun _ => .error ""
  answers := .default
  listen := .ok

theorem bind_checked_settled :
    settled.check settledHost.tree = .ok () ∧
      ∃ looked acceptor d source,
        settledHost.acceptor settled = (looked, .ok acceptor) ∧ acceptor.isSome = true ∧
          Detector.ofSettings settled acceptor = .ok d ∧
          bind settled acceptor (settledHost.listen settled.listen) = .source source d ∧
          source.free = 2305843009213693951 ∧
          bind settled acceptor (.error "Address in use") = .fault (.io "Address in use") := by
  have hchecked : settled.check settledHost.tree = .ok () := rfl
  have hacceptor : settledHost.acceptor settled = (_, .ok (some ⟨.default⟩)) := rfl
  obtain ⟨hbinds, hpresent⟩ := bind_checked hchecked
  have hsome := hpresent settledHost _ _ hacceptor
  obtain ⟨d, hd, hnone, hlistens⟩ := hbinds _ hsome
  obtain ⟨source, hbound, -, hfree, -⟩ := (hlistens settled.listen).1 (by decide)
  exact ⟨hchecked, _, _, d, source, hacceptor, hsome, hd, hbound, hfree, hnone _⟩

/-- One connection more than there can be permits is accepted, and brings the program down. -/
theorem bind_crowded :
    let settings : Settings :=
      { Settings.default with
        listen := .v4 ⟨127, 0, 0, 1⟩ 0
        maxConnections := 2305843009213693952 }
    settings.check .empty = .ok () ∧
      Option.isSome (none : Option Tls.Acceptor) =
        (settings.tls.isSome && settings.transport.mayUseTls) ∧
      bind settings none (.ok (.v4 ⟨127, 0, 0, 1⟩ 40000)) = .crash := by
  intro settings
  have hchecked : settings.check .empty = .ok () := rfl
  have hacceptor : Option.isSome (none : Option Tls.Acceptor) =
      (settings.tls.isSome && settings.transport.mayUseTls) := rfl
  obtain ⟨d, hd⟩ := detector_of_check hchecked hacceptor
  exact ⟨hchecked, hacceptor, (bind_eq_crash_iff hd _).2 (by decide)⟩

end Source

/--
Settings that were accepted start the program if the acceptor, the output and the endpoint can be
had; but with more connections than there can be permits they bring it down.
-/
theorem Host.start_checked
    {host : Host} {settings : Settings}
    {looked : List Entry} {acceptor : Option Tls.Acceptor} {sink : Sink} {endpoint : Endpoint}
    (hchecked : settings.check host.tree = .ok ())
    (hacceptor : host.acceptor settings = (looked, .ok acceptor))
    (hsink : Sink.openAt host.tree settings.output Sink.defaultCapacity = .ok sink)
    (hlisten : host.listen settings.listen = .ok endpoint) :
    (settings.maxConnections.toNat ≤ Source.mostPermits →
        ∃ d source, (host.start settings).2 = .running ⟨settings, d, source, sink⟩) ∧
      (Source.mostPermits < settings.maxConnections.toNat →
        (host.start settings).2 = .crashed) := by
  obtain ⟨d, hd⟩ := Source.detector_of_check hchecked (Host.isSome_of_acceptor hacceptor)
  simp only [start, hchecked, hacceptor, setUp, hsink, hlisten]
  constructor
  · intro hfits
    obtain ⟨source, hbound, -⟩ := Source.bind_of_le hd hfits endpoint
    rw [hbound]
    exact ⟨d, source, rfl⟩
  · intro hmany
    rw [(Source.bind_eq_crash_iff hd endpoint).2 hmany]

end SyslogIntake
