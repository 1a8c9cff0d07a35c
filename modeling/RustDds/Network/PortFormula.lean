import RustDds.Network.Ports

/-!
# The ports of participants that start one after the other

The retry loop makes up for the index that a participant does not know: each participant of a
domain that starts on a machine takes the two ports after those of the one before, and these are
the ports of the formula.  Eight fit, and the ninth fails (`Machine.formula_of_starts`).
-/

namespace RustDds

namespace Machine

variable {m : Machine} {k : ℕ} {o : Opening}

section
variable {id : ℤ} {ipv6 noMulticast : Bool} {cs : List Opening}

/-- The system refuses nothing. -/
def grants (_ : UdpSocket) : Option String := none

/-- A participant starts in one go, as the `k`-th. -/
def startUp (id : ℤ) (ipv6 noMulticast : Bool) (k : ℕ) : List MachineEvent :=
  .start id ipv6 noMulticast :: List.replicate 4 (.advance k grants)

/-- `n` participants start, one after the other. -/
def startUps (id : ℤ) (ipv6 noMulticast : Bool) (n : ℕ) : List MachineEvent :=
  (List.range n).flatMap (startUp id ipv6 noMulticast)

/-- The participants of a domain that are there, and no others, have the ports of the formula. -/
structure Lined (id : ℤ) (ipv6 : Bool) (cs : List Opening) : Prop where
  hasRoom : HasRoom ⟨cs, []⟩
  lined : ∀ i o, cs[i]? = some o → o.stage = .running ∧ o.domain.id = id ∧ o.ipv6 = ipv6 ∧
    o.metaPort = some (7410 + 250 * id.toNat + 2 * i) ∧
      o.dataPort = some (7411 + 250 * id.toNat + 2 * i)

/-- The retry loop takes the first port that is free. -/
lemma bindUnicastRetry_eq {port j : ℕ} {make : ℕ → Except String Unit} {e : String} (hj : j < 16)
    (hport : port + 16 ≤ 2 ^ 16) (hused : ∀ i < j, make (port + i) = .error e)
    (hfree : make (port + j) = .ok ()) : bindUnicastRetry port make = .ok (port + j) := by
  have hsat : ∀ i < 16, saturatingAdd16 port i = port + i := by
    intro i hi
    rw [saturatingAdd16]
    omega
  have hrange : List.range unicastPortRetries =
      List.range j ++ (List.range (15 - j + 1)).map (j + ·) := by
    rw [← List.range_add]
    exact congrArg List.range (by rw [unicastPortRetries]; omega)
  rw [bindUnicastRetry, hrange, bindUnicastLoop_append, List.range_succ_eq_map, List.map_cons,
    bindUnicastLoop, Nat.add_zero, hsat j hj, hfree]
  intro i hi
  have hlt := List.mem_range.mp hi
  rw [hsat i (by omega)]
  exact hused i hlt

lemma bindUnicastRetry_eq_error {port : ℕ} {make : ℕ → Except String Unit} {e : String}
    (hport : port + 16 ≤ 2 ^ 16) (hused : ∀ i < 16, make (port + i) = .error e) :
    bindUnicastRetry port make = .error e := by
  have hall : bindUnicastLoop port make none (List.range 16 ++ []) =
      bindUnicastLoop port make (some e) [] := by
    refine bindUnicastLoop_append fun i hi => ?_
    have hlt := List.mem_range.mp hi
    rw [saturatingAdd16, Nat.min_eq_left (by omega)]
    exact hused i hlt
  rwa [List.append_nil] at hall

/-- The ports up to those of the next participant are taken. -/
lemma Lined.exists_blocks (h : Lined id ipv6 cs) {i : ℕ} (hi : i < 2 * cs.length) (o : Opening) :
    ∃ t ∈ (⟨cs ++ [o], []⟩ : Machine).sockets,
      t.Blocks ⟨ipv6, 7410 + 250 * id.toNat + i, false⟩ := by
  have hlt : i / 2 < cs.length := by omega
  obtain ⟨-, -, hipv6, hmeta, hdata⟩ := h.lined (i / 2) _ (List.getElem?_eq_getElem hlt)
  refine ⟨⟨ipv6, 7410 + 250 * id.toNat + i, false⟩, ?_, rfl, rfl, by simp⟩
  refine List.mem_append_left _ (List.mem_flatMap.mpr ⟨cs[i / 2],
    List.mem_append_left _ (List.getElem_mem hlt), Opening.mem_sockets.mpr ⟨hipv6.symm,
      .inl ⟨rfl, ?_⟩⟩⟩)
  rw [Opening.unicastPorts, hmeta, hdata, Option.toList_some, Option.toList_some]
  rcases Nat.mod_two_eq_zero_or_one i with hmod | hmod
  · exact List.mem_append_left _ (List.mem_singleton.mpr (by dsimp only; omega))
  · exact List.mem_append_right _ (List.mem_singleton.mpr (by dsimp only; omega))

/-- Those from there on are free. -/
lemma Lined.not_blocks (h : Lined id ipv6 cs) {j : ℕ} (hj : 2 * cs.length ≤ j) {t : UdpSocket}
    (ht : t ∈ (⟨cs, []⟩ : Machine).sockets) :
    ¬ t.Blocks ⟨ipv6, 7410 + 250 * id.toNat + j, false⟩ := by
  rintro ⟨-, hport, -⟩
  dsimp only at hport
  rw [sockets, List.append_nil] at ht
  obtain ⟨o, ho, ht⟩ := List.mem_flatMap.mp ht
  obtain ⟨i, hi⟩ := List.mem_iff_getElem?.mp ho
  obtain ⟨hlt, -⟩ := List.getElem?_eq_some_iff.mp hi
  obtain ⟨-, hdomain, -, hmeta, hdata⟩ := h.lined i o hi
  obtain ⟨-, ⟨-, hmem⟩ | ⟨-, hmem⟩⟩ := Opening.mem_sockets.mp ht
  · rw [Opening.unicastPorts, hmeta, hdata, List.mem_append, Option.mem_toList,
      Option.mem_toList, Option.some.injEq, Option.some.injEq] at hmem
    dsimp only at hlt
    omega
  · have hbounds := (h.hasRoom.valid o ho).multicastPort hmem
    rw [Opening.firstPort, hdomain] at hbounds
    omega

/-- The last of the participants takes a step. -/
lemma handle_advance_last (cs : List Opening) (o : Opening) :
    handle ⟨cs ++ [o], []⟩ (.advance cs.length grants) =
      match o.advance (bindSocket (⟨cs ++ [o], []⟩ : Machine).sockets grants) with
      | .error e => (⟨cs, []⟩, [e])
      | .ok o' => (⟨cs ++ [o'], []⟩, []) := by
  rw [handle, List.getElem?_concat_length]
  dsimp only
  cases o.advance (bindSocket (⟨cs ++ [o], []⟩ : Machine).sockets grants) with
  | error e => simp [List.eraseIdx_append_of_length_le]
  | ok o' => simp

/-- A step of a start that has its unicast ports changes them no more. -/
lemma advance_of_lt {o o' : Opening} {make : UdpSocket → Except String Unit}
    (hadv : o.advance make = .ok o') (hlt : 1 < o.stage.rank) :
    o'.stage.rank = min (o.stage.rank + 1) 4 ∧ o'.metaPort = o.metaPort ∧
      o'.dataPort = o.dataPort := by
  rw [Opening.advance] at hadv
  cases hstage : o.stage with
  | metatraffic => exact absurd hlt (by rw [hstage]; decide)
  | userData => exact absurd hlt (by rw [hstage]; decide)
  | spdpMulticast =>
    rw [hstage] at hadv
    dsimp only at hadv
    split at hadv
    · cases hadv
      exact ⟨rfl, rfl, rfl⟩
    split at hadv
    · cases hadv
    split at hadv
    · cases hadv
    · cases hadv
      exact ⟨rfl, rfl, rfl⟩
  | userMulticast =>
    rw [hstage] at hadv
    dsimp only at hadv
    split at hadv
    · cases hadv
      exact ⟨rfl, rfl, rfl⟩
    split at hadv
    · cases hadv
      exact ⟨rfl, rfl, rfl⟩
    split at hadv <;> cases hadv <;> exact ⟨rfl, rfl, rfl⟩
  | running =>
    rw [hstage] at hadv
    cases hadv
    rw [hstage]
    exact ⟨rfl, rfl, rfl⟩

/-- Where there is room, the last of the participants gets on. -/
lemma HasRoom.advance_last {o : Opening} (h : HasRoom ⟨cs ++ [o], []⟩) :
    ∃ o', o.advance (bindSocket (⟨cs ++ [o], []⟩ : Machine).sockets grants) = .ok o' ∧
      handle ⟨cs ++ [o], []⟩ (.advance cs.length grants) = (⟨cs ++ [o'], []⟩, []) ∧
        HasRoom ⟨cs ++ [o'], []⟩ ∧ o'.domain = o.domain ∧ o'.ipv6 = o.ipv6 := by
  have hgrants : ∀ s, grants s = none := fun _ => rfl
  obtain ⟨o', hadv⟩ := h.exists_advance (k := cs.length) List.getElem?_concat_length hgrants
  have hhandle := handle_advance_last cs o
  rw [hadv] at hhandle
  have hstep := (h.step (e := .advance cs.length grants) hgrants).1
  rw [Machine.step, hhandle] at hstep
  obtain ⟨-, hdomain, hipv6, -⟩ :=
    (h.valid o (List.mem_append_right _ List.mem_cons_self)).advance hadv
  exact ⟨o', hadv, hhandle, hstep, hdomain, hipv6⟩

/-- What is bound before a participant blocks the ports before its own. -/
lemma Lined.bindSocket_of_lt (h : Lined id ipv6 cs) (o : Opening) {i : ℕ}
    (hi : i < 2 * cs.length) : bindSocket (⟨cs ++ [o], []⟩ : Machine).sockets grants
      ⟨ipv6, 7410 + 250 * id.toNat + i, false⟩ = .error "address in use" := by
  obtain ⟨t, ht, hblocks⟩ := h.exists_blocks hi o
  exact bindSocket_of_exists rfl ht hblocks

/-- A socket that neither the others nor it itself has bound is free. -/
lemma Lined.bindSocket_of_le (h : Lined id ipv6 cs) {o : Opening} {j : ℕ}
    (hj : 2 * cs.length ≤ j)
    (ho : ∀ t ∈ o.sockets, ¬ t.Blocks ⟨ipv6, 7410 + 250 * id.toNat + j, false⟩) :
    bindSocket (⟨cs ++ [o], []⟩ : Machine).sockets grants
      ⟨ipv6, 7410 + 250 * id.toNat + j, false⟩ = .ok () := by
  refine bindSocket_of_forall rfl fun t ht => ?_
  have hmem : t ∈ (⟨cs, []⟩ : Machine).sockets ∨ t ∈ o.sockets := by simpa [sockets] using ht
  exact hmem.elim (fun ht => h.not_blocks hj ht) fun ht => ho t ht

/-- The first of the two ports. -/
lemma Lined.bind_metatraffic (h : Lined id ipv6 cs) (hid : id.toNat ≤ 232) (hlen : cs.length < 8)
    {o : Opening} (ho : o.sockets = []) :
    bindUnicastRetry (7410 + 250 * id.toNat) (fun p =>
      bindSocket (⟨cs ++ [o], []⟩ : Machine).sockets grants ⟨ipv6, p, false⟩) =
        .ok (7410 + 250 * id.toNat + 2 * cs.length) := by
  refine bindUnicastRetry_eq (by omega) (by omega) (fun i hi => h.bindSocket_of_lt o hi) ?_
  refine h.bindSocket_of_le le_rfl fun t ht => ?_
  rw [ho] at ht
  cases ht

/-- The second: its own first is in the way once. -/
lemma Lined.bind_userData (h : Lined id ipv6 cs) (hid : id.toNat ≤ 232) (hlen : cs.length < 8)
    {o : Opening} (ho : o.sockets = [⟨ipv6, 7410 + 250 * id.toNat + 2 * cs.length, false⟩]) :
    bindUnicastRetry (7411 + 250 * id.toNat) (fun p =>
      bindSocket (⟨cs ++ [o], []⟩ : Machine).sockets grants ⟨ipv6, p, false⟩) =
        .ok (7411 + 250 * id.toNat + 2 * cs.length) := by
  have hshift : ∀ i, 7411 + 250 * id.toNat + i = 7410 + 250 * id.toNat + (i + 1) := by omega
  have hused : ∀ i < 2 * cs.length, bindSocket (⟨cs ++ [o], []⟩ : Machine).sockets grants
      ⟨ipv6, 7411 + 250 * id.toNat + i, false⟩ = .error "address in use" := by
    intro i hi
    rw [hshift]
    by_cases hlast : i + 1 < 2 * cs.length
    · exact h.bindSocket_of_lt o hlast
    · have hown : i + 1 = 2 * cs.length := by omega
      rw [hown]
      refine bindSocket_of_exists rfl ?_ ⟨rfl, rfl, by simp⟩ (t := ⟨ipv6, _, false⟩)
      refine List.mem_append_left _ (List.mem_flatMap.mpr ⟨o,
        List.mem_append_right _ List.mem_cons_self, ?_⟩)
      rw [ho]
      exact List.mem_cons_self
  refine bindUnicastRetry_eq (by omega) (by omega) hused ?_
  rw [hshift]
  refine h.bindSocket_of_le (Nat.le_succ _) fun t ht => ?_
  rw [ho, List.mem_singleton] at ht
  rintro ⟨-, hport, -⟩
  rw [ht] at hport
  dsimp only at hport
  omega

/-- **One more participant** starts and gets the next two ports. -/
lemma Lined.startUp (h : Lined id ipv6 cs) (hid : 0 ≤ id ∧ id ≤ maxDomainId)
    (hlen : cs.length < 8) (noMulticast : Bool) :
    ∃ o, (startUp id ipv6 noMulticast cs.length).foldl step ⟨cs, []⟩ = ⟨cs ++ [o], []⟩ ∧
      Lined id ipv6 (cs ++ [o]) := by
  have hd : id.toNat ≤ 232 := Opening.toNat_domain_le ⟨id, hid⟩
  let o₀ : Opening := ⟨⟨id, hid⟩, ipv6, noMulticast, 7400 + 250 * id.toNat + 10,
    7400 + 250 * id.toNat + 11, .metatraffic, none, none, none, none⟩
  let o₁ : Opening := { o₀ with
    metaPort := some (7410 + 250 * id.toNat + 2 * cs.length), stage := .userData }
  let o₂ : Opening := { o₁ with
    dataPort := some (7411 + 250 * id.toNat + 2 * cs.length), stage := .spdpMulticast }
  have hhandle₀ : handle ⟨cs, []⟩ (.start id ipv6 noMulticast) = (⟨cs ++ [o₀], []⟩, []) := by
    rw [handle, Opening.start_eq hid]
  have hroom₀ : HasRoom ⟨cs ++ [o₀], []⟩ := by
    have hkin : (⟨cs, []⟩ : Machine).kin id ipv6 < 8 := List.countP_le_length.trans_lt hlen
    have hstep := (h.hasRoom.step (e := .start id ipv6 noMulticast) ⟨hid.1, hid.2, hkin⟩).1
    rwa [Machine.step, hhandle₀] at hstep
  -- the unicast sockets
  have hadv₀ : o₀.advance (bindSocket (⟨cs ++ [o₀], []⟩ : Machine).sockets grants) = .ok o₁ := by
    have hbind := h.bind_metatraffic hd hlen (o := o₀) rfl
    rw [show 7410 + 250 * id.toNat = o₀.metaBasePort by dsimp only [o₀]; omega] at hbind
    rw [Opening.advance]
    dsimp only [o₀] at hbind ⊢
    rw [hbind]
    dsimp only [o₁, o₀]
    rw [show 7400 + 250 * id.toNat + 10 = 7410 + 250 * id.toNat by omega]
  obtain ⟨o₁', hadv₁', hhandle₁, hroom₁, -⟩ := hroom₀.advance_last
  obtain rfl : o₁ = o₁' := Except.ok.inj (hadv₀.symm.trans hadv₁')
  have hadv₁ : o₁.advance (bindSocket (⟨cs ++ [o₁], []⟩ : Machine).sockets grants) = .ok o₂ := by
    have hbind := h.bind_userData hd hlen (o := o₁) rfl
    rw [show 7411 + 250 * id.toNat = o₁.dataBasePort by dsimp only [o₁, o₀]; omega] at hbind
    rw [Opening.advance]
    dsimp only [o₁, o₀] at hbind ⊢
    rw [hbind]
    dsimp only [o₂, o₁, o₀]
    rw [show 7400 + 250 * id.toNat + 11 = 7411 + 250 * id.toNat by omega]
  obtain ⟨o₂', hadv₂', hhandle₂, hroom₂, -⟩ := hroom₁.advance_last
  obtain rfl : o₂ = o₂' := Except.ok.inj (hadv₁.symm.trans hadv₂')
  -- the groups do not matter
  obtain ⟨o₃, hadv₃, hhandle₃, hroom₃, hdomain₃, hipv6₃⟩ := hroom₂.advance_last
  obtain ⟨hrank, hmeta₃, hdata₃⟩ := advance_of_lt hadv₃ Nat.one_lt_two
  have hrank₃ : o₃.stage.rank = 3 := hrank
  obtain ⟨o₄, hadv₄, hhandle₄, hroom₄, hdomain₄, hipv6₄⟩ := hroom₃.advance_last
  obtain ⟨hrank₄, hmeta₄, hdata₄⟩ := advance_of_lt hadv₄ (by omega)
  refine ⟨o₄, ?_, hroom₄, fun i o hi => ?_⟩
  · rw [Machine.startUp]
    simp only [List.replicate_succ, List.replicate_zero, List.foldl_cons, List.foldl_nil,
      Machine.step, hhandle₀, hhandle₁, hhandle₂, hhandle₃, hhandle₄]
  · rcases Nat.lt_trichotomy i cs.length with hlt | rfl | hgt
    · rw [List.getElem?_append_left hlt] at hi
      exact h.lined i o hi
    · rw [List.getElem?_concat_length] at hi
      cases hi
      refine ⟨StartStage.eq_running (by omega), ?_, hipv6₄.trans hipv6₃, hmeta₄.trans hmeta₃,
        hdata₄.trans hdata₃⟩
      rw [hdomain₄, hdomain₃]
    · rw [List.getElem?_eq_none (by simp; omega)] at hi
      cases hi

lemma lined_startUps (hid : 0 ≤ id ∧ id ≤ maxDomainId) (ipv6 noMulticast : Bool) {n : ℕ}
    (hn : n ≤ 8) : ∃ cs, (startUps id ipv6 noMulticast n).foldl step ⟨[], []⟩ = ⟨cs, []⟩ ∧
      cs.length = n ∧ Lined id ipv6 cs := by
  induction n with
  | zero =>
    refine ⟨[], rfl, rfl, ⟨⟨fun _ ho => (by cases ho), List.Pairwise.nil⟩,
      fun _ hs => (by cases hs), fun _ _ => Nat.zero_le 8⟩, fun _ _ ho => (by cases ho)⟩
  | succ n ih =>
    obtain ⟨cs, hrun, hlen, hlined⟩ := ih (Nat.le_of_succ_le hn)
    obtain ⟨o, hnext, hlined'⟩ := hlined.startUp hid (hlen ▸ hn) noMulticast
    refine ⟨cs ++ [o], ?_, by simp [hlen], hlined'⟩
    rw [startUps, List.range_succ, List.flatMap_append, List.foldl_append]
    rw [startUps] at hrun
    rw [hrun, List.flatMap_singleton, ← hlen, hnext]

/-- **The formula.**  Participants of a domain that start one after the other on a machine get the
ports that the formula gives to participants 0 to 7, and the ninth does not start. -/
theorem formula_of_starts (id : ℤ) (hid : 0 ≤ id ∧ id ≤ maxDomainId) (ipv6 noMulticast : Bool)
    (n : ℕ) (hn : n ≤ 8) :
    let m := (startUps id ipv6 noMulticast n).foldl step ⟨[], []⟩
    m.calls.length = n ∧
      (∀ i < n, ∃ o, m.calls[i]? = some o ∧ o.stage = .running ∧
        o.metaPort = metaUnicastPort id.toNat i ∧ o.dataPort = dataUnicastPort id.toNat i) ∧
      (n = 8 → Run.trace step failures m (startUp id ipv6 noMulticast 8) =
        [.other "rtps: bind metatraffic socket: address in use"]) := by
  intro m
  have hd : id.toNat ≤ 232 := Opening.toNat_domain_le ⟨id, hid⟩
  obtain ⟨cs, hrun, hlen, hlined⟩ := lined_startUps hid ipv6 noMulticast hn
  have hm : m = ⟨cs, []⟩ := hrun
  rw [hm]
  refine ⟨hlen, fun i hi => ?_, fun height => ?_⟩
  · have hlt : i < cs.length := hlen ▸ hi
    obtain ⟨hstage, -, -, hmeta, hdata⟩ := hlined.lined i _ (List.getElem?_eq_getElem hlt)
    refine ⟨cs[i], List.getElem?_eq_getElem hlt, hstage, ?_, ?_⟩
    · rw [hmeta, metaUnicastPort, toPort, portBase, domainGain, participantGain,
        if_pos (by omega)]
      congr 1
      omega
    · rw [hdata, dataUnicastPort, toPort, portBase, domainGain, participantGain,
        if_pos (by omega)]
      congr 1
      omega
  · -- all of the sixteen ports are taken
    obtain ⟨o₀, hstart⟩ : ∃ o₀, Opening.start id ipv6 noMulticast = .ok o₀ ∧
        o₀.advance (bindSocket (⟨cs ++ [o₀], []⟩ : Machine).sockets grants) =
          .error (.other "rtps: bind metatraffic socket: address in use") := by
      refine ⟨_, Opening.start_eq hid ipv6 noMulticast, ?_⟩
      rw [Opening.advance]
      dsimp only
      rw [show 7400 + 250 * id.toNat + 10 = 7410 + 250 * id.toNat by omega,
        bindUnicastRetry_eq_error (by omega) fun i hi =>
          hlined.bindSocket_of_lt _ (by omega)]
      rfl
    obtain ⟨hstart, hadv⟩ := hstart
    have hhandle₀ : handle ⟨cs, []⟩ (.start id ipv6 noMulticast) = (⟨cs ++ [o₀], []⟩, []) := by
      rw [handle, hstart]
    have hhandle₁ : handle ⟨cs ++ [o₀], []⟩ (.advance 8 grants) =
        (⟨cs, []⟩, [.other "rtps: bind metatraffic socket: address in use"]) := by
      have hlast := handle_advance_last cs o₀
      rwa [hadv, hlen, height] at hlast
    have hhandle₂ : handle ⟨cs, []⟩ (.advance 8 grants) = (⟨cs, []⟩, []) := by
      rw [handle, List.getElem?_eq_none (by simp [hlen, height])]
    simp only [startUp, List.replicate_succ, List.replicate_zero, Run.trace, step, failures,
      hhandle₀, hhandle₁, hhandle₂, List.nil_append, List.append_nil]

/-- Participant 7 of domain 0 gets the last of the ports, and there is no participant 8. -/
theorem formula_of_starts_eight :
    let m := (startUps 0 false false 8).foldl step ⟨[], []⟩
    (∃ o, m.calls[7]? = some o ∧ o.metaPort = some 7424 ∧ o.dataPort = some 7425) ∧
      Run.trace step failures m (startUp 0 false false 8) =
        [.other "rtps: bind metatraffic socket: address in use"] := by
  obtain ⟨-, hports, hninth⟩ := formula_of_starts 0 (by decide) false false 8 le_rfl
  obtain ⟨o, ho, -, hmeta, hdata⟩ := hports 7 (by decide)
  exact ⟨⟨o, ho, hmeta, hdata⟩, hninth rfl⟩

end

end Machine

end RustDds
