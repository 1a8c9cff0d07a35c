import RustDds.Lib.Panic
import RustDds.Shmem.Paths

/-!
# The sockets of a participant

`new_with_config` binds a socket for metatraffic and one for user data, each at the first free of
`UNICAST_PORT_RETRIES` ports from the one that the formula gives participant 0 of the domain on,
and joins two multicast groups, whose ports are shared.  Between any two of these steps other
tasks and other processes of the machine may bind sockets or close some.

A unicast socket has its port to itself; sockets that are shared may have one port together.  IPv4
and IPv6 have ports of their own, since an IPv6 socket is bound for IPv6 only.
-/

namespace RustDds

/-! ## The port formula -/

/-- `PORT_BASE`. -/
def portBase : ℕ := 7400

/-- `DOMAIN_GAIN`. -/
def domainGain : ℕ := 250

/-- `PARTICIPANT_GAIN`. -/
def participantGain : ℕ := 2

/-- `u16::try_from`. -/
def toPort (n : ℕ) : Option ℕ := if n < 2 ^ 16 then some n else none

/-- The port of SPDP's multicast group. -/
def metaMulticastPort (domain : ℕ) : Option ℕ := toPort (portBase + domainGain * domain)

/-- The port for the metatraffic of a participant. -/
def metaUnicastPort (domain participantIdx : ℕ) : Option ℕ :=
  toPort (portBase + domainGain * domain + 10 + participantGain * participantIdx)

/-- The port for the user data of a participant. -/
def dataUnicastPort (domain participantIdx : ℕ) : Option ℕ :=
  toPort (portBase + domainGain * domain + 11 + participantGain * participantIdx)

/-- The port of the multicast group for user data. -/
def userMulticastPort (domain : ℕ) : Option ℕ := toPort (portBase + domainGain * domain + 1)

/-! ## Binding -/

/-- A socket that is bound to a port of every address. -/
structure UdpSocket where
  ipv6 : Bool
  port : ℕ
  /-- Bound with `SO_REUSEADDR` and `SO_REUSEPORT`. -/
  shared : Bool
  deriving DecidableEq, Repr

/-- `t` does not let `s` have its port. -/
def UdpSocket.Blocks (t s : UdpSocket) : Prop :=
  t.ipv6 = s.ipv6 ∧ t.port = s.port ∧ ¬ (t.shared ∧ s.shared)

instance UdpSocket.decidableBlocks (t s : UdpSocket) : Decidable (t.Blocks s) :=
  inferInstanceAs (Decidable (t.ipv6 = s.ipv6 ∧ t.port = s.port ∧ ¬ (t.shared ∧ s.shared)))

/-- What the system says of binding `s` while `sockets` are bound.  It may have reasons of its own
to refuse. -/
def bindSocket (sockets : List UdpSocket) (refuses : UdpSocket → Option String) (s : UdpSocket) :
    Except String Unit :=
  match refuses s with
  | some e => .error e
  | none => if ∃ t ∈ sockets, t.Blocks s then .error "address in use" else .ok ()

/-- `UNICAST_PORT_RETRIES`. -/
def unicastPortRetries : ℕ := 16

/-- `saturating_add` on 16 bits. -/
def saturatingAdd16 (a b : ℕ) : ℕ := min (a + b) (2 ^ 16 - 1)

/-- The turns `is` of the retry loop. -/
def bindUnicastLoop (port : ℕ) (make : ℕ → Except String Unit) :
    Option String → List ℕ → Except String ℕ
  | lastErr, [] => .error (lastErr.getD
      (s!"rtps: no free UDP port in range [{port}, {saturatingAdd16 port unicastPortRetries})"))
  | _, i :: is =>
    match make (saturatingAdd16 port i) with
    | .ok () => .ok (saturatingAdd16 port i)
    | .error e => bindUnicastLoop port make (some e) is

/-- `bind_unicast_retry`. -/
def bindUnicastRetry (port : ℕ) (make : ℕ → Except String Unit) : Except String ℕ :=
  bindUnicastLoop port make none (List.range unicastPortRetries)

section
variable {sockets : List UdpSocket} {refuses : UdpSocket → Option String} {s t : UdpSocket}
  {port p : ℕ} {make : ℕ → Except String Unit}

lemma UdpSocket.Blocks.symm (h : t.Blocks s) : s.Blocks t :=
  ⟨h.1.symm, h.2.1.symm, fun hs => h.2.2 hs.symm⟩

lemma not_blocks_of_bindSocket (h : bindSocket sockets refuses s = .ok ()) :
    ∀ t ∈ sockets, ¬ t.Blocks s := by
  rw [bindSocket] at h
  split at h
  · cases h
  · split at h
    · cases h
    · rename_i hno
      exact fun t ht hblocks => hno ⟨t, ht, hblocks⟩

lemma bindSocket_of_forall (hrefuses : refuses s = none) (h : ∀ t ∈ sockets, ¬ t.Blocks s) :
    bindSocket sockets refuses s = .ok () := by
  rw [bindSocket, hrefuses]
  exact if_neg fun ⟨t, ht, hblocks⟩ => h t ht hblocks

lemma bindSocket_of_exists (hrefuses : refuses s = none) (ht : t ∈ sockets) (h : t.Blocks s) :
    bindSocket sockets refuses s = .error "address in use" := by
  rw [bindSocket, hrefuses]
  exact if_pos ⟨t, ht, h⟩

/-- The loop stops at the first port that can be bound. -/
lemma bindUnicastLoop_eq_ok {lastErr : Option String} {is : List ℕ}
    (h : bindUnicastLoop port make lastErr is = .ok p) :
    ∃ i ∈ is, p = saturatingAdd16 port i ∧ make p = .ok () := by
  induction is generalizing lastErr with
  | nil => cases h
  | cons i is ih =>
    rw [bindUnicastLoop] at h
    split at h
    · rename_i hok
      cases h
      exact ⟨i, List.mem_cons_self, rfl, hok⟩
    · obtain ⟨j, hj, hp⟩ := ih h
      exact ⟨j, List.mem_cons_of_mem _ hj, hp⟩

/-- Past the ports that fail, the loop goes on. -/
lemma bindUnicastLoop_append {lastErr : Option String} {is js : List ℕ} {e : String}
    (h : ∀ i ∈ is, make (saturatingAdd16 port i) = .error e) :
    bindUnicastLoop port make lastErr (is ++ js) =
      bindUnicastLoop port make (if is = [] then lastErr else some e) js := by
  induction is generalizing lastErr with
  | nil => rfl
  | cons i is ih =>
    have hrest : bindUnicastLoop port make (some e) (is ++ js) =
        bindUnicastLoop port make (if is = [] then some e else some e) js :=
      ih fun j hj => h j (List.mem_cons_of_mem _ hj)
    rw [List.cons_append, bindUnicastLoop, h i List.mem_cons_self]
    dsimp only
    rw [hrest, if_neg (List.cons_ne_nil _ _)]
    split <;> rfl

/-- Where one of the ports can be bound, the loop does not fail. -/
lemma bindUnicastLoop_ne_error {lastErr : Option String} {is : List ℕ} {e : String} {i : ℕ}
    (hi : i ∈ is) (h : make (saturatingAdd16 port i) = .ok ()) :
    bindUnicastLoop port make lastErr is ≠ .error e := by
  induction is generalizing lastErr with
  | nil => cases hi
  | cons j is ih =>
    rw [bindUnicastLoop]
    split
    · exact fun heq => by cases heq
    · rename_i e' he'
      rcases List.mem_cons.mp hi with rfl | hi
      · rw [h] at he'
        cases he'
      · exact ih hi

end

/-! ## Starting a participant -/

/-- Why a participant does not start. -/
inductive StartError
  | domainOutOfRange
  | other (message : String)
  deriving DecidableEq, Repr

/-- What `new_with_config` does next. -/
inductive StartStage
  | metatraffic
  | userData
  | spdpMulticast
  | userMulticast
  | running
  deriving DecidableEq, Repr

/-- A call of `new_with_config`, or the participant it has returned: the ports it has bound. -/
structure Opening where
  domain : Domain
  ipv6 : Bool
  noMulticast : Bool
  metaBasePort : ℕ
  dataBasePort : ℕ
  stage : StartStage
  metaPort : Option ℕ
  dataPort : Option ℕ
  mcastPort : Option ℕ
  userMcastPort : Option ℕ

namespace Opening

/-- The beginning of `new_with_config`, before any socket is bound. -/
def start (id : ℤ) (ipv6 noMulticast : Bool) : Except StartError Opening :=
  if h : 0 ≤ id ∧ id ≤ maxDomainId then
    match metaUnicastPort id.toNat 0 with
    | none => .error (.other
        s!"rtps: domain {id} out of range for the metatraffic unicast port formula")
    | some metaBasePort =>
      match dataUnicastPort id.toNat 0 with
      | none => .error (.other
          s!"rtps: domain {id} out of range for the user-data unicast port formula")
      | some dataBasePort => .ok {
          domain := ⟨id, h⟩, ipv6, noMulticast, metaBasePort, dataBasePort
          stage := .metatraffic, metaPort := none, dataPort := none, mcastPort := none
          userMcastPort := none }
  else .error .domainOutOfRange

/-- Its unicast ports. -/
def unicastPorts (o : Opening) : List ℕ := o.metaPort.toList ++ o.dataPort.toList

/-- The ports of the multicast groups it has joined. -/
def multicastPorts (o : Opening) : List ℕ := o.mcastPort.toList ++ o.userMcastPort.toList

/-- Its sockets. -/
def sockets (o : Opening) : List UdpSocket :=
  o.unicastPorts.map (⟨o.ipv6, ·, false⟩) ++ o.multicastPorts.map (⟨o.ipv6, ·, true⟩)

/-- The next step of `new_with_config`. -/
def advance (make : UdpSocket → Except String Unit) (o : Opening) : Except StartError Opening :=
  match o.stage with
  | .metatraffic =>
    match bindUnicastRetry o.metaBasePort fun p => make ⟨o.ipv6, p, false⟩ with
    | .error e => .error (.other s!"rtps: bind metatraffic socket: {e}")
    | .ok p => .ok { o with metaPort := some p, stage := .userData }
  | .userData =>
    match bindUnicastRetry o.dataBasePort fun p => make ⟨o.ipv6, p, false⟩ with
    | .error e => .error (.other s!"rtps: bind user-data socket: {e}")
    | .ok p => .ok { o with dataPort := some p, stage := .spdpMulticast }
  | .spdpMulticast =>
    if o.noMulticast then .ok { o with stage := .userMulticast }
    else
      match metaMulticastPort o.domain.id.toNat with
      | none => .error (.other
          s!"rtps: domain {o.domain.id} out of range for the SPDP multicast port formula")
      | some p =>
        match make ⟨o.ipv6, p, true⟩ with
        | .error e => .error (.other s!"rtps: bind SPDP multicast socket: {e}")
        | .ok () => .ok { o with mcastPort := some p, stage := .userMulticast }
  | .userMulticast =>
    if o.noMulticast then .ok { o with stage := .running }
    else
      match userMulticastPort o.domain.id.toNat with
      | none => .ok { o with stage := .running }
      | some p =>
        -- to do without is no failure
        match make ⟨o.ipv6, p, true⟩ with
        | .error _ => .ok { o with stage := .running }
        | .ok () => .ok { o with userMcastPort := some p, stage := .running }
  | .running => .ok o

end Opening

end RustDds
