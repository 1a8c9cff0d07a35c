import Mathlib.Data.List.Induction
import RustDds.Rtps.Spdp

/-!
# Whom discovery lets in

With a discovery plugin, an announcement must carry a token the plugin accepts under the GUID
prefix in the header of its message.  The peer is then stored under the GUID of the proxy, which
is the one the announcement itself claims in `PID_PARTICIPANT_GUID`, where it claims one.

`SpdpService.Admits` is the guarantee: whoever is in the table, or was told to the listener, has
been authenticated, and is not the participant itself.  It holds in every state of a run whose
accepted announcements claim no GUID other than their sender's (`admits_of_claimsSender`), and
`exists_impersonated` is a run in which one does.
-/

namespace RustDds

/-! ## Announcements and what they claim -/

/-- The announcements in a datagram, each with the GUID prefix of its sender. -/
def announcements (data : Bytes) : List (GuidPrefix × Bytes) :=
  match Header.decode data with
  | .error _ => []
  | .ok header =>
    (submessages (data.drop 20)).filterMap fun raw =>
      (announcedPayload raw).map fun payload => (header.guidPrefix, payload)

/-- The GUID in a parameter. -/
def guidParam (param : Param) : Option Guid :=
  if param.pid = pidParticipantGuid then (Guid.decode param.value).toOption else none

/-- The GUID an announcement claims: the last one in it that decodes. -/
def claimedGuid (payload : Bytes) : Option Guid :=
  (PlCdrDecoder.decodeParams payload).bind fun params => (params.filterMap guidParam).getLast?

/-- No parameter but a GUID touches the GUID of a proxy. -/
lemma ParticipantProxy.guid_readParam (src : SocketAddr) (proxy : ParticipantProxy)
    (param : Param) : (proxy.readParam src param).guid = (guidParam param).getD proxy.guid := by
  unfold readParam guidParam
  by_cases hguid : param.pid = pidParticipantGuid
  · rw [hguid, if_neg (by decide), if_neg (by decide), if_neg (by decide), if_neg (by decide),
      if_pos rfl, if_pos rfl]
    cases Guid.decode param.value <;> rfl
  · rw [if_neg hguid, if_neg hguid]
    dsimp only
    repeat' split
    all_goals rfl

/-- The GUID of a parsed proxy: the claimed one, or else the sender's. -/
lemma guid_parseParticipantData {guidPrefix : GuidPrefix} {payload : Bytes} {src : SocketAddr}
    {proxy : ParticipantProxy} (h : parseParticipantData guidPrefix payload src = some proxy) :
    proxy.guid = (claimedGuid payload).getD ⟨guidPrefix, entityIdParticipant⟩ := by
  unfold parseParticipantData at h
  unfold claimedGuid
  cases hparams : PlCdrDecoder.decodeParams payload with
  | none =>
    rw [hparams] at h
    cases h
  | some params =>
    rw [hparams] at h
    cases h
    -- the loop keeps the last GUID it reads
    have hloop : ∀ proxy : ParticipantProxy,
        (params.foldl (ParticipantProxy.readParam src) proxy).guid =
          ((params.filterMap guidParam).getLast?).getD proxy.guid := by
      clear hparams
      induction params with
      | nil => exact fun proxy => rfl
      | cons param params ih =>
        intro proxy
        rw [List.foldl_cons, ih, ParticipantProxy.guid_readParam, List.filterMap_cons]
        cases guidParam param with
        | none => rfl
        | some g => rw [List.getLast?_cons]; rfl
    exact hloop (.initial guidPrefix)

/-! ## Runs of the service -/

/-- What happens to a discovery service. -/
inductive SpdpEvent
  /-- A datagram arrives. -/
  | packet (now : ℕ) (data : Bytes) (src : SocketAddr)
  /-- The eviction sweep runs. -/
  | evict (now : ℕ)
  /-- A peer listener registers. -/
  | listen

/-- The datagrams of a run. -/
def received (events : List SpdpEvent) : List Bytes :=
  events.filterMap fun
    | .packet _ data _ => some data
    | _ => none

/-- Some received announcement, sent under `guidPrefix`, carried a token that the plugin accepts
for that prefix. -/
def Authenticated (plugin : DiscoveryPlugin) (events : List SpdpEvent) (guidPrefix : GuidPrefix) :
    Prop :=
  ∃ data ∈ received events, ∃ payload, (guidPrefix, payload) ∈ announcements data ∧
    ∃ token, extractDiscoveryToken payload = some token ∧
      plugin.verifyDiscovery guidPrefix.bytes token = true

lemma Authenticated.mono {plugin : DiscoveryPlugin} {events events' : List SpdpEvent}
    {guidPrefix : GuidPrefix} (h : Authenticated plugin events guidPrefix)
    (hsub : events ⊆ events') : Authenticated plugin events' guidPrefix := by
  obtain ⟨data, hdata, rest⟩ := h
  obtain ⟨e, he, heq⟩ := List.mem_filterMap.mp hdata
  exact ⟨data, List.mem_filterMap.mpr ⟨e, hsub he, heq⟩, rest⟩

/-- The accepted announcements of a datagram claim no GUID prefix but their sender's.  Those
that would be the participant's own are ignored. -/
def SpdpEvent.ClaimsSender (cfg : SpdpConfig) : SpdpEvent → Prop
  | .packet _ data _ =>
    ∀ a ∈ announcements data, a.1 ≠ cfg.guidPrefix → cfg.verifies a.1 a.2 = true →
      ∀ g ∈ claimedGuid a.2, g.guidPrefix = a.1
  | _ => True

namespace SpdpService

/-- The service after an event. -/
def step (s : SpdpService) : SpdpEvent → SpdpService
  | .packet now data src => s.handlePacket now data src
  | .evict now => s.evictExpired now
  | .listen => s.setPeerListener

/-- The service after a run of events. -/
def after (cfg : SpdpConfig) (events : List SpdpEvent) : SpdpService :=
  events.foldl step (new cfg)

/-- The GUID prefixes the service stands for: those in its table, and those of the proxies its
listener was sent. -/
def Admitted (s : SpdpService) (guidPrefix : GuidPrefix) : Prop :=
  guidPrefix ∈ s.peers.keys ∨
    ∃ proxies, s.peerListener = some proxies ∧ ∃ proxy ∈ proxies, proxy.guid.guidPrefix = guidPrefix

/-- Everyone let in is good, and the configuration is as it was. -/
def Admits (cfg : SpdpConfig) (good : GuidPrefix → Prop) (s : SpdpService) : Prop :=
  s.config = cfg ∧ ∀ guidPrefix, s.Admitted guidPrefix → good guidPrefix

variable {cfg : SpdpConfig} {good good' : GuidPrefix → Prop} {s : SpdpService}

lemma Admits.imp (h : s.Admits cfg good) (himp : ∀ p, good p → good' p) : s.Admits cfg good' :=
  ⟨h.1, fun p hp => himp p (h.2 p hp)⟩

lemma admits_new (cfg : SpdpConfig) (good : GuidPrefix → Prop) : (new cfg).Admits cfg good := by
  refine ⟨rfl, ?_⟩
  rintro p (hp | ⟨proxies, hnone, -⟩)
  · simp [new] at hp
  · cases hnone

lemma Admits.setPeerListener (h : s.Admits cfg good) : s.setPeerListener.Admits cfg good := by
  refine ⟨h.1, ?_⟩
  rintro p (hp | ⟨proxies, hsome, proxy, hproxy, -⟩)
  · exact h.2 p (.inl hp)
  · cases hsome
    cases hproxy

lemma Admits.evictExpired (h : s.Admits cfg good) (now : ℕ) :
    (s.evictExpired now).Admits cfg good := by
  refine ⟨h.1, ?_⟩
  rintro p (hp | hp)
  · obtain ⟨proxy, hproxy⟩ := Table.mem_keys_iff.mp hp
    rw [SpdpService.evictExpired, Table.lookup_retain] at hproxy
    exact h.2 p (.inl (Table.mem_keys_iff.mpr ⟨proxy, (Option.filter_eq_some_iff.mp hproxy).1⟩))
  · exact h.2 p (.inr hp)

/-- Storing a good peer. -/
lemma Admits.storePeer (h : s.Admits cfg good) (now : ℕ) {proxy : ParticipantProxy}
    (hgood : good proxy.guid.guidPrefix) : (s.storePeer now proxy).2.Admits cfg good := by
  refine ⟨h.1, ?_⟩
  rintro p (hp | ⟨proxies, hsome, proxy', hmem, rfl⟩)
  · by_cases hp' : p = proxy.guid.guidPrefix
    · exact hp' ▸ hgood
    · obtain ⟨peer, hpeer⟩ := Table.mem_keys_iff.mp hp
      rw [SpdpService.storePeer] at hpeer
      dsimp only at hpeer
      rw [AList.lookup_insert_ne hp'] at hpeer
      exact h.2 p (.inl (Table.mem_keys_iff.mpr ⟨peer, hpeer⟩))
  · obtain ⟨before, hbefore, rfl⟩ := Option.map_eq_some_iff.mp hsome
    rcases List.mem_append.mp hmem with hmem | hmem
    · exact h.2 _ (.inr ⟨before, hbefore, proxy', hmem, rfl⟩)
    · rw [List.mem_singleton.mp hmem]
      exact hgood

/-- A submessage lets in no one new but the GUID claimed by an announcement that verifies, or
its sender where it claims none. -/
lemma Admits.handleSubmessage (h : s.Admits cfg good) (now : ℕ) (guidPrefix : GuidPrefix)
    (src : SocketAddr) (raw : RawSubmessage)
    (hgood : ∀ payload, announcedPayload raw = some payload →
      cfg.verifies guidPrefix payload = true →
        good ((claimedGuid payload).getD ⟨guidPrefix, entityIdParticipant⟩).guidPrefix) :
    (s.handleSubmessage now guidPrefix src raw).Admits cfg good := by
  unfold SpdpService.handleSubmessage
  split
  · exact h
  rename_i payload hpayload
  split
  · rename_i hverifies
    split
    · rename_i proxy hproxy
      refine h.storePeer now ?_
      rw [guid_parseParticipantData hproxy]
      exact hgood payload hpayload (h.1 ▸ hverifies)
    · exact h
  · exact h

/-- **The step.**  A datagram whose accepted announcements claim their senders lets in only
those senders. -/
lemma Admits.handlePacket (h : s.Admits cfg good) (now : ℕ) (data : Bytes) (src : SocketAddr)
    (hclaims : (SpdpEvent.packet now data src).ClaimsSender cfg)
    (hgood : ∀ a ∈ announcements data, a.1 ≠ cfg.guidPrefix → cfg.verifies a.1 a.2 = true →
      good a.1) : (s.handlePacket now data src).Admits cfg good := by
  unfold SpdpService.handlePacket
  cases hheader : Header.decode data with
  | error _ => exact h
  | ok header =>
    dsimp only
    split
    · exact h
    rename_i hforeign
    rw [h.1] at hforeign
    -- every submessage of the datagram is one the hypotheses speak of
    have hann : ∀ raw ∈ submessages (data.drop 20), ∀ payload,
        announcedPayload raw = some payload →
          (header.guidPrefix, payload) ∈ announcements data := by
      intro raw hraw payload hpayload
      rw [announcements, hheader]
      exact List.mem_filterMap.mpr ⟨raw, hraw, by rw [hpayload]; rfl⟩
    generalize submessages (data.drop 20) = raws at hann
    induction raws generalizing s with
    | nil => exact h
    | cons raw raws ih =>
      rw [List.foldl_cons]
      refine ih (h.handleSubmessage now header.guidPrefix src raw ?_)
        fun raw' hraw' => hann raw' (List.mem_cons_of_mem _ hraw')
      intro payload hpayload hverifies
      have hmem := hann raw List.mem_cons_self payload hpayload
      have hsender := hgood _ hmem hforeign hverifies
      cases hclaim : claimedGuid payload with
      | none => exact hsender
      | some g =>
        rw [Option.getD_some, hclaims _ hmem hforeign hverifies g hclaim]
        exact hsender

/-- An announcement that passes the plugin carried a token, since the empty one passes for no
one. -/
lemma exists_token_of_verifies {plugin : DiscoveryPlugin}
    (hplugin : cfg.discoveryPlugin = some plugin)
    {guidPrefix : GuidPrefix} {payload : Bytes} (h : cfg.verifies guidPrefix payload = true) :
    ∃ token, extractDiscoveryToken payload = some token ∧
      plugin.verifyDiscovery guidPrefix.bytes token = true := by
  rw [SpdpConfig.verifies, hplugin] at h
  dsimp only at h
  cases htoken : extractDiscoveryToken payload with
  | none =>
    rw [htoken, Option.getD_none, plugin.verifyDiscovery_nil] at h
    cases h
  | some token =>
    rw [htoken] at h
    exact ⟨token, rfl, h⟩

/-- **Whom discovery lets in.**  In a run whose accepted announcements claim no GUID prefix but
their sender's, every state reached lets in only authenticated prefixes, and never the
participant's own. -/
theorem admits_of_claimsSender (cfg : SpdpConfig) (plugin : DiscoveryPlugin)
    (hplugin : cfg.discoveryPlugin = some plugin) (events : List SpdpEvent)
    (hclaims : ∀ e ∈ events, e.ClaimsSender cfg) (pre : List SpdpEvent) (hpre : pre <+: events)
    (guidPrefix : GuidPrefix) (hadm : (after cfg pre).Admitted guidPrefix) :
    guidPrefix ≠ cfg.guidPrefix ∧ Authenticated plugin pre guidPrefix := by
  have hrun : (after cfg pre).Admits cfg fun p =>
      p ≠ cfg.guidPrefix ∧ Authenticated plugin pre p := by
    replace hclaims := fun e he => hclaims e (hpre.subset he)
    clear hadm hpre
    induction pre using List.reverseRecOn with
    | nil => exact admits_new cfg _
    | append_singleton pre e ih =>
      have hbefore := (ih fun e' he' => hclaims e' (List.mem_append_left _ he')).imp
        fun p (hp : p ≠ cfg.guidPrefix ∧ _) =>
          And.intro hp.1 (hp.2.mono (List.subset_append_left pre [e]))
      rw [after, List.foldl_append, List.foldl_cons, List.foldl_nil]
      cases e with
      | packet now data src =>
        refine hbefore.handlePacket now data src (hclaims _ (by simp)) ?_
        intro a ha hforeign hverifies
        refine ⟨hforeign, data, ?_, a.2, ha, exists_token_of_verifies hplugin hverifies⟩
        exact List.mem_filterMap.mpr ⟨.packet now data src, by simp, rfl⟩
      | evict now => exact hbefore.evictExpired now
      | listen => exact hbefore.setPeerListener
  exact hrun.2 guidPrefix hadm

/-! ### Two runs -/

/-- A plugin whose tag for a prefix is the prefix and a secret. -/
def secretPlugin : DiscoveryPlugin where
  signDiscovery := fun p => p ++ [0xA5, 0x5A, 0xC3, 0x3C]
  verifyDiscovery := fun p tag => tag = p ++ [0xA5, 0x5A, 0xC3, 0x3C]
  verifyDiscovery_nil := by simp

/-- The configuration of a participant whose prefix is twelve times `n`. -/
def secretConfig (n : UInt8) : SpdpConfig where
  guidPrefix := ⟨List.replicate 12 n, GuidPrefix.length_replicate n⟩
  vendorId := vendorIdRustDds
  metaUnicastPort := 7410
  dataUnicastPort := 7411
  ipv6 := false
  discoveryPlugin := some secretPlugin

/-- What participant `n` announces. -/
def ownAnnouncement (n : UInt8) : SpdpEvent :=
  .packet 0 (announcementMessage (secretConfig n).guidPrefix vendorIdRustDds 1
    (buildParticipantData (secretConfig n))) (.v4 (FixedBytes.zero 4) 7410)

/-- Participant 1 stores participant 2, which announced itself as the code does. -/
theorem admits_of_claimsSender_own :
    Authenticated secretPlugin [ownAnnouncement 2] (secretConfig 2).guidPrefix :=
  (admits_of_claimsSender (secretConfig 1) secretPlugin rfl [ownAnnouncement 2]
    (fun e he => by
      rw [List.mem_singleton.mp he, ownAnnouncement, SpdpEvent.ClaimsSender]
      decide +kernel)
    [ownAnnouncement 2] (List.prefix_refl _) (secretConfig 2).guidPrefix
    (.inl (by decide +kernel))).2

/-- An announcement of participant 2, with the token for its own prefix, that claims the GUID of
participant `n`. -/
def impersonation (n : UInt8) : SpdpEvent :=
  .packet 0 (announcementMessage (secretConfig 2).guidPrefix vendorIdRustDds 1
    (((PlCdrEncoder.new.addGuid pidParticipantGuid
        ⟨(secretConfig n).guidPrefix, entityIdParticipant⟩).addBytes pidDiscoveryToken
        (secretPlugin.signDiscovery (secretConfig 2).guidPrefix.bytes)).finish))
    (.v4 (FixedBytes.zero 4) 7410)

/-- Participant 2, with its own token, makes participant 1 know a participant 3 that never
announced itself. -/
theorem exists_impersonated :
    ¬ ∀ (cfg : SpdpConfig) (plugin : DiscoveryPlugin), cfg.discoveryPlugin = some plugin →
      ∀ (events : List SpdpEvent) (guidPrefix : GuidPrefix),
        (after cfg events).Admitted guidPrefix →
          guidPrefix ≠ cfg.guidPrefix ∧ Authenticated plugin events guidPrefix := by
  intro h
  obtain ⟨-, data, hdata, payload, hann, -⟩ := h (secretConfig 1) secretPlugin rfl
    [impersonation 3] (secretConfig 3).guidPrefix (.inl (by decide +kernel))
  have hsenders : ∀ d ∈ received [impersonation 3], ∀ a ∈ announcements d,
      a.1 = (secretConfig 2).guidPrefix := by decide +kernel
  have hne : (secretConfig 3).guidPrefix ≠ (secretConfig 2).guidPrefix := by decide
  exact hne (hsenders data hdata _ hann)

end SpdpService

end RustDds
