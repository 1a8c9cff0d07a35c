import RustDds.Network.Hosts
import RustDds.Network.Ports

/-!
# The hosts of a network

A network is of participants whose metatraffic sockets share their addresses with no other socket
and no group.  Participants that run on any machines are such, whatever has started and stopped
there before (`Machine.exists_hosts`).
-/

namespace RustDds

/-- `USER_DATA_MULTICAST_ADDR` and `USER_DATA_MULTICAST_ADDR_V6`, at a port. -/
def userDataMulticastAddr (ipv6 : Bool) (port : UInt16) : SocketAddr :=
  if ipv6 then .v6 ⟨[0xFF, 0x03, 0, 0, 0, 0, 0, 0, 0, 0, 0, 0, 0, 0, 0, 2], rfl⟩ port
  else .v4 ⟨[239, 255, 0, 2], rfl⟩ port

lemma port_userDataMulticastAddr (ipv6 : Bool) (port : UInt16) :
    (userDataMulticastAddr ipv6 port).port = port := by
  cases ipv6 <;> rfl

/-- What a participant is created with once its start is done. -/
def Opening.config (o : Opening) (guidPrefix : GuidPrefix) : ParticipantConfig where
  guidPrefix
  metaUnicastPort := UInt16.ofNat (o.metaPort.getD 0)
  dataUnicastPort := UInt16.ofNat (o.dataPort.getD 0)
  ipv6 := o.ipv6
  userDataMulticastAddr :=
    o.userMcastPort.map fun p => userDataMulticastAddr o.ipv6 (UInt16.ofNat p)

lemma SocketAddr.port_withPort (a : SocketAddr) (p : UInt16) : (a.withPort p).port = p := by
  cases a <;> rfl

lemma SocketAddr.isV6_withPort (a : SocketAddr) (p : UInt16) : (a.withPort p).isV6 = a.isV6 := by
  cases a <;> rfl

lemma SocketAddr.withPort_withPort (a : SocketAddr) (p q : UInt16) :
    (a.withPort p).withPort q = a.withPort q := by
  cases a <;> rfl

namespace Machine

variable {m : Machine} {k k' : ℕ} {o o' : Opening}

/-- Sockets of two participants do not block each other. -/
lemma Sane.not_blocks (h : m.Sane) (hk : m.calls[k]? = some o) (hk' : m.calls[k']? = some o')
    (hne : k ≠ k') {s t : UdpSocket} (hs : s ∈ o.sockets) (ht : t ∈ o'.sockets) :
    ¬ s.Blocks t := by
  have hpair := (exclusive_iff_of_perm (sockets_perm hk)).mp h.exclusive
  refine (List.pairwise_append.mp hpair).2.2 s hs t ?_
  exact List.mem_append_left _ (List.mem_flatMap.mpr ⟨o',
    List.mem_eraseIdx_iff_getElem?.mpr ⟨k', hne.symm, hk'⟩, ht⟩)

/-- The two unicast sockets of a participant that runs. -/
structure Runs (o : Opening) (p q : ℕ) : Prop where
  metaPort : o.metaPort = some p
  dataPort : o.dataPort = some q
  lt : p < 2 ^ 16 ∧ q < 2 ^ 16
  ne : p ≠ q

lemma Sane.exists_runs (h : m.Sane) (hk : m.calls[k]? = some o) (hstage : o.stage = .running) :
    ∃ p q, Runs o p q := by
  have hvalid := h.valid o (List.mem_of_getElem? hk)
  have hd := Opening.toNat_domain_le o.domain
  have hmeta := hvalid.meta_iff
  have hdata := hvalid.data_iff
  rw [hstage] at hmeta hdata
  obtain ⟨p, hp⟩ := Option.isSome_iff_exists.mp (hmeta.mpr (by decide))
  obtain ⟨q, hq⟩ := Option.isSome_iff_exists.mp (hdata.mpr (by decide))
  have hpbounds := hvalid.metaPort p hp
  have hqbounds := hvalid.dataPort q hq
  rw [Opening.firstPort] at hpbounds hqbounds
  refine ⟨p, q, hp, hq, ⟨by omega, by omega⟩, ?_⟩
  -- they are two sockets of one machine
  rintro rfl
  have hpair := (exclusive_iff_of_perm (sockets_perm hk)).mp h.exclusive
  have hown := (List.pairwise_append.mp hpair).1
  rw [Opening.sockets, Opening.unicastPorts, hp, hq] at hown
  exact (List.pairwise_cons.mp hown).1 _ List.mem_cons_self ⟨rfl, rfl, by simp⟩

lemma ofNat_port_inj {p q : ℕ} (hp : p < 2 ^ 16) (hq : q < 2 ^ 16)
    (h : UInt16.ofNat p = UInt16.ofNat q) : p = q := by
  have hnat := congrArg UInt16.toNat h
  rwa [UInt16.toNat_ofNat_of_lt' hp, UInt16.toNat_ofNat_of_lt' hq] at hnat

/-- Unicast sockets of running participants have different addresses. -/
lemma Sane.eq_of_port_eq (h : m.Sane) (hk : m.calls[k]? = some o) (hk' : m.calls[k']? = some o')
    (hipv6 : o.ipv6 = o'.ipv6) {p : ℕ} (hp : p ∈ o.unicastPorts) (hp' : p ∈ o'.unicastPorts) :
    k = k' := by
  by_contra hne
  refine h.not_blocks hk hk' hne (s := ⟨o.ipv6, p, false⟩) (t := ⟨o'.ipv6, p, false⟩)
    (Opening.mem_sockets.mpr ⟨rfl, .inl ⟨rfl, hp⟩⟩)
    (Opening.mem_sockets.mpr ⟨rfl, .inl ⟨rfl, hp'⟩⟩) ⟨hipv6, rfl, by simp⟩

/-- **The hosts of a network.**  Participants that run on machines of different IPs, each machine
after any run, are as a network needs them if their prefixes are different: a metatraffic socket
shares its address with no other socket and no group. -/
theorem exists_hosts {ι κ : Type*} (events : κ → List MachineEvent) (ip : κ → Bool → SocketAddr)
    (hisV6 : ∀ c v, (ip c v).isV6 = v)
    (hip : ∀ c c' v v' x y, (ip c v).withPort x = (ip c' v').withPort y → c = c')
    (place : ι → κ × ℕ) (hplace : place.Injective) (opening : ι → Opening)
    (hopening : ∀ i, ((events (place i).1).foldl step ⟨[], []⟩).calls[(place i).2]? =
      some (opening i)) (hstage : ∀ i, (opening i).stage = .running)
    (guidPrefix : ι → GuidPrefix) (hguidPrefix : guidPrefix.Injective) :
    ∃ H : Hosts ι, ∀ i, (H.host i).cfg = (opening i).config (guidPrefix i) ∧
      (H.host i).addr = (ip (place i).1 (opening i).ipv6).withPort
        (UInt16.ofNat ((opening i).metaPort.getD 0)) := by
  have hruns : ∀ i, ∃ p q, Runs (opening i) p q := fun i =>
    (sane_run (events (place i).1)).exists_runs (hopening i) (hstage i)
  choose p q hpq using hruns
  have hmeta : ∀ i, (opening i).metaPort.getD 0 = p i := fun i => by
    rw [(hpq i).metaPort, Option.getD_some]
  have hdata : ∀ i, (opening i).dataPort.getD 0 = q i := fun i => by
    rw [(hpq i).dataPort, Option.getD_some]
  have hmem : ∀ i, p i ∈ (opening i).unicastPorts ∧ q i ∈ (opening i).unicastPorts := by
    intro i
    rw [Opening.unicastPorts, (hpq i).metaPort, (hpq i).dataPort]
    simp
  let addr (i : ι) (x : ℕ) : SocketAddr :=
    (ip (place i).1 (opening i).ipv6).withPort (UInt16.ofNat x)
  -- two unicast sockets of one address are one
  have hapart : ∀ i j x y, x ∈ (opening i).unicastPorts → y ∈ (opening j).unicastPorts →
      x < 2 ^ 16 → y < 2 ^ 16 → addr i x = addr j y → i = j ∧ x = y := by
    intro i j x y hx hy hxlt hylt heq
    have hmachine : (place i).1 = (place j).1 := hip _ _ _ _ _ _ heq
    have hipv6 : (opening i).ipv6 = (opening j).ipv6 := by
      have hv6 := congrArg SocketAddr.isV6 heq
      rwa [SocketAddr.isV6_withPort, SocketAddr.isV6_withPort, hisV6, hisV6] at hv6
    have hport := congrArg SocketAddr.port heq
    rw [SocketAddr.port_withPort, SocketAddr.port_withPort] at hport
    obtain rfl := ofNat_port_inj hxlt hylt hport
    refine ⟨hplace (Prod.ext hmachine ?_), rfl⟩
    refine (sane_run (events (place i).1)).eq_of_port_eq (hopening i) ?_ hipv6 hx hy
    rw [hmachine]
    exact hopening j
  let host (i : ι) : Host := ⟨(opening i).config (guidPrefix i), addr i (p i), by
    rw [SocketAddr.port_withPort, Opening.config, hmeta], by
    rw [SocketAddr.isV6_withPort, hisV6, Opening.config]⟩
  have hdataAddr : ∀ i, (host i).dataAddr = addr i (q i) := fun i => by
    rw [Host.dataAddr]
    dsimp only [host, addr]
    rw [SocketAddr.withPort_withPort, Opening.config, hdata]
  refine ⟨⟨host, fun i j heq => hguidPrefix heq, fun i j heq => ?_, fun i j heq => ?_,
    fun i j heq => ?_⟩, fun i => ⟨rfl, ?_⟩⟩
  · exact (hapart i j _ _ (hmem i).1 (hmem j).1 (hpq i).lt.1 (hpq j).lt.1 heq).1
  · rw [hdataAddr] at heq
    obtain ⟨rfl, hsame⟩ := hapart i j _ _ (hmem i).2 (hmem j).1 (hpq i).lt.2 (hpq j).lt.1 heq
    exact (hpq i).ne hsame.symm
  · obtain ⟨x, hx, hgroup⟩ := Option.map_eq_some_iff.mp heq
    have hi := (sane_run (events (place i).1)).valid _ (List.mem_of_getElem? (hopening i))
    have hj := (sane_run (events (place j).1)).valid _ (List.mem_of_getElem? (hopening j))
    have hxport := hi.userMcastPort x hx
    have hpbounds := hj.metaPort _ (hpq j).metaPort
    have hd := Opening.toNat_domain_le (opening i).domain
    rw [Opening.firstPort] at hxport hpbounds
    have hport := congrArg SocketAddr.port hgroup
    rw [port_userDataMulticastAddr, SocketAddr.port_withPort] at hport
    have hsame := ofNat_port_inj (by omega) (hpq j).lt.1 hport
    omega
  · show addr i (p i) = _
    rw [hmeta]

/-- The address of a machine. -/
def ipOfOne : Bool → SocketAddr
  | true => .v6 ⟨List.replicate 16 1, rfl⟩ 0
  | false => .v4 (RtpsUdpParticipant.ipOf 1) 0

lemma toNat_lt_length_sideBySide :
    ∀ i : Bool, i.toNat < (sideBySide.foldl step ⟨[], []⟩).calls.length := by
  decide +kernel

/-- The two participants that start at the same time. -/
def sideBySideCall (i : Bool) : Opening :=
  (sideBySide.foldl step ⟨[], []⟩).calls.get ⟨i.toNat, toNat_lt_length_sideBySide i⟩

/-- They are hosts. -/
theorem exists_hosts_sideBySide : ∃ H : Hosts Bool,
    (H.host false).addr = .v4 ⟨[10, 0, 0, 1], rfl⟩ 7410 ∧
      (H.host true).addr = .v4 ⟨[10, 0, 0, 1], rfl⟩ 7411 := by
  obtain ⟨H, hH⟩ := exists_hosts (fun _ : Unit => sideBySide) (fun _ => ipOfOne) (by decide)
    (fun _ _ _ _ _ _ _ => rfl) (fun i : Bool => ((), i.toNat)) (by decide)
    sideBySideCall (fun i => List.getElem?_eq_getElem (toNat_lt_length_sideBySide i))
    (by decide +kernel)
    (fun i => (ParticipantConfig.numbered (if i then 2 else 1)).guidPrefix) (by decide)
  refine ⟨H, (hH false).2.trans ?_, (hH true).2.trans ?_⟩
  · decide +kernel
  · decide +kernel

end Machine

end RustDds
