import TerraX.Lib.Run
import TerraX.Net.NetChannel
import Mathlib.Data.Set.Card

/-!
# The channel indexes of a server

A `NetServer` gives every connection the first of its free indexes, and takes the index of a
channel that is removed from the channel itself: from the low half of its peer info, the word
in which the rest of the code keeps the type and the index of the peer.

## Main definitions

- `NetServer.Partitioned` — every index is free or that of its channel, and never both
- `ChannelIndexes.system` — connections, changes of the live channels, and removals

## Main results

- `ChannelIndexes.step_partitioned` — every event keeps the partition, and no assertion fails
- `ChannelIndexes.indexes_partitioned` — what holds in every state that is reached
-/

namespace TerraX

open Memory

namespace NetChannel

@[simp] theorem getChannelIndex_setPeerType (ch : NetChannel) (t : PeerType) :
    (ch.setPeerType t).getChannelIndex = ch.getChannelIndex := by
  rw [getChannelIndex, peerInfo_setPeerType, PeerInfo.getChannelIndex_serialize]

@[simp] theorem getChannelIndex_setPeerIndex (ch : NetChannel) (i : UInt8) :
    (ch.setPeerIndex i).getChannelIndex = ch.getChannelIndex := by
  rw [getChannelIndex, peerInfo_setPeerIndex, PeerInfo.getChannelIndex_serialize]

@[simp] theorem getChannelIndex_setChannelIndex (ch : NetChannel) (idx : UInt16) :
    (ch.setChannelIndex idx).getChannelIndex = idx := by
  rw [getChannelIndex, peerInfo_setChannelIndex, PeerInfo.getChannelIndex_serialize]

end NetChannel

namespace NetServer

/-- The free indexes at the start. -/
theorem mem_freeIndexes_new (maxConns c : UInt16) :
    c ∈ (new maxConns).freeIndexes ↔ 0 < c ∧ c < maxConns := by
  have hmax := maxConns.toNat_lt
  have hsize : UInt16.size = 65536 := rfl
  rw [new, List.mem_map]
  constructor
  · rintro ⟨i, hi, rfl⟩
    obtain ⟨hpos, hlt⟩ := List.mem_range'_1.mp hi
    have hval : (UInt16.ofNat i).toNat = i := UInt16.toNat_ofNat_of_lt (by omega)
    constructor
    · apply UInt16.lt_iff_toNat_lt.mpr
      rw [hval]
      exact hpos
    · apply UInt16.lt_iff_toNat_lt.mpr
      omega
  · rintro ⟨hpos, hlt⟩
    have hpos := UInt16.lt_iff_toNat_lt.mp hpos
    have hlt := UInt16.lt_iff_toNat_lt.mp hlt
    have hzero : (0 : UInt16).toNat = 0 := rfl
    exact ⟨c.toNat, List.mem_range'_1.mpr ⟨by omega, by omega⟩, UInt16.ofNat_toNat⟩

theorem coe_freeIndexes_new (maxConns : UInt16) :
    ((new maxConns).freeIndexes.toFinset : Set UInt16) = {c | 0 < c ∧ c < maxConns} := by
  ext c
  rw [List.coe_toFinset]
  exact mem_freeIndexes_new maxConns c

/-- The indexes in the range are one fewer than the number of connections. -/
theorem ncard_range (maxConns : UInt16) :
    Set.ncard {c : UInt16 | 0 < c ∧ c < maxConns} = maxConns.toNat - 1 := by
  rw [← coe_freeIndexes_new, Set.ncard_coe_finset,
    List.toFinset_card_of_nodup (new_indexed maxConns).nodup, new, List.length_map,
    List.length_range']

/-- A connection is refused only when no index is free. -/
theorem onConnect_refused (net : NetServer) : net.onConnect.2 = none ↔ net.freeIndexes = [] := by
  rcases onConnect_cases net with hrefused | ⟨idx, rest, hfree, haccepted⟩
  · rw [hrefused]
    refine ⟨fun _ => ?_, fun _ => rfl⟩
    cases hfree : net.freeIndexes with
    | nil => rfl
    | cons idx rest =>
      rw [onConnect, hfree] at hrefused
      cases congrArg Prod.snd hrefused
  · rw [haccepted, hfree]
    constructor <;> intro h <;> cases h

/-- The free indexes are listed once and are those in the range that no channel has; and a
    channel of the map is filed under its own index, which is in the range. -/
structure Partitioned (maxConns : UInt16) (net : NetServer) : Prop where
  nodup : net.freeIndexes.Nodup
  free : ∀ c, c ∈ net.freeIndexes ↔ (0 < c ∧ c < maxConns) ∧ net.getChannel c = none
  index : ∀ c channel, net.getChannel c = some channel →
    (0 < c ∧ c < maxConns) ∧ channel.getChannelIndex = c

variable {maxConns : UInt16} {net : NetServer}

theorem new_partitioned (maxConns : UInt16) : (new maxConns).Partitioned maxConns where
  nodup := (new_indexed maxConns).nodup
  free c := (mem_freeIndexes_new maxConns c).trans ⟨fun h => ⟨h, rfl⟩, And.left⟩
  index _ _ h := nomatch h

/-- The first free index goes to a channel that holds it. -/
theorem Partitioned.give (h : net.Partitioned maxConns) {idx : UInt16} {rest : List UInt16}
    (hfree : net.freeIndexes = idx :: rest) {channel : NetChannel}
    (hidx : channel.getChannelIndex = idx) :
    (⟨rest, Function.update net.channels idx (some channel)⟩ : NetServer).Partitioned maxConns := by
  obtain ⟨hnew, hrest⟩ := List.nodup_cons.mp (hfree ▸ h.nodup)
  obtain ⟨hrange, hnone⟩ := (h.free idx).mp (by rw [hfree]; exact List.mem_cons_self)
  -- only the entry of `idx` changes, and `idx` is not among the other free indexes
  have hget : ∀ c, (⟨rest, Function.update net.channels idx (some channel)⟩ : NetServer).getChannel c =
      if c = idx then some channel else net.getChannel c := fun c => Function.update_apply ..
  refine ⟨hrest, fun c => ?_, fun c found hc => ?_⟩
  · have hmem := h.free c
    rw [hfree, List.mem_cons] at hmem
    rw [hget]
    by_cases hcidx : c = idx
    · rw [if_pos hcidx, hcidx]
      exact ⟨fun hc => absurd hc hnew, fun hc => nomatch hc.2⟩
    · rw [if_neg hcidx, ← hmem]
      exact ⟨Or.inr, fun hc => hc.resolve_left hcidx⟩
  · rw [hget] at hc
    by_cases hcidx : c = idx
    · rw [if_pos hcidx] at hc
      cases hc
      exact ⟨hcidx ▸ hrange, hidx.trans hcidx.symm⟩
    · rw [if_neg hcidx] at hc
      exact h.index c found hc

/-- A channel changes and keeps its index. -/
theorem Partitioned.setChannel (h : net.Partitioned maxConns) {c : UInt16}
    {channel channel' : NetChannel} (hc : net.getChannel c = some channel)
    (hidx : channel'.getChannelIndex = channel.getChannelIndex) :
    (net.setChannel c channel').Partitioned maxConns := by
  have hown := h.index c channel hc
  refine ⟨h.nodup, fun k => ?_, fun k found hk => ?_⟩
  · refine (h.free k).trans (and_congr_right fun _ => ?_)
    rw [getChannel_setChannel]
    by_cases hkc : k = c
    · rw [if_pos hkc, hkc, hc]
      constructor <;> intro hnone <;> cases hnone
    · rw [if_neg hkc]
  · rw [getChannel_setChannel] at hk
    by_cases hkc : k = c
    · rw [if_pos hkc] at hk
      cases hk
      exact ⟨hkc ▸ hown.1, (hidx.trans hown.2).trans hkc.symm⟩
    · rw [if_neg hkc] at hk
      exact h.index k found hk

/-- A channel of the map that is disconnected can be removed, and its index is free again. -/
theorem Partitioned.removeChannel (build : Build) (h : net.Partitioned maxConns) {c : UInt16}
    {channel : NetChannel} (hc : net.getChannel c = some channel)
    (hstate : channel.connState = .disconnected) :
    ∃ net', net.removeChannel build channel = .ok net' ∧ net'.Partitioned maxConns := by
  obtain ⟨hrange, hidx⟩ := h.index c channel hc
  -- the index of a live channel is not free, so it is not listed twice afterwards
  have hnew : c ∉ net.freeIndexes := by
    intro hmem
    have hnone := ((h.free c).mp hmem).2
    rw [hc] at hnone
    cases hnone
  have hget : ∀ k, (⟨net.freeIndexes ++ [c], Function.update net.channels c none⟩ :
      NetServer).getChannel k = if k = c then none else net.getChannel k :=
    fun k => Function.update_apply ..
  refine ⟨⟨net.freeIndexes ++ [c], Function.update net.channels c none⟩, ?_, ?_, fun k => ?_,
    fun k found hk => ?_⟩
  · rw [NetServer.removeChannel, hidx, check_of build hstate, ok_bind,
      check_of build (by rw [hc]; rfl)]
    rfl
  · exact List.nodup_append.mpr ⟨h.nodup, List.nodup_singleton c, fun a ha b hb hab =>
      hnew (List.mem_singleton.mp hb ▸ hab ▸ ha)⟩
  · rw [List.mem_append, List.mem_singleton, h.free, hget]
    by_cases hkc : k = c
    · rw [if_pos hkc, hkc]
      exact ⟨fun _ => ⟨hrange, rfl⟩, fun _ => Or.inr rfl⟩
    · rw [if_neg hkc]
      exact or_iff_left hkc
  · rw [hget] at hk
    by_cases hkc : k = c
    · rw [if_pos hkc] at hk
      cases hk
    · rw [if_neg hkc] at hk
      exact h.index k found hk

/-- A connection is refused exactly when every index is that of a channel. -/
theorem Partitioned.refused_iff (h : net.Partitioned maxConns) :
    net.onConnect.2 = none ↔
      Set.ncard {c | (net.getChannel c).isSome} = maxConns.toNat - 1 := by
  have hrange : {c : UInt16 | (net.getChannel c).isSome} ⊆ {c | 0 < c ∧ c < maxConns} := by
    intro c hc
    obtain ⟨channel, hchannel⟩ := Option.isSome_iff_exists.mp hc
    exact (h.index c channel hchannel).1
  rw [onConnect_refused, ← ncard_range]
  constructor
  · intro hfree
    congr 1
    refine hrange.antisymm fun c hc => ?_
    by_contra hnone
    have hmem := (h.free c).mpr ⟨hc, Option.not_isSome_iff_eq_none.mp hnone⟩
    rw [hfree] at hmem
    cases hmem
  · intro hcard
    have hfinite : {c : UInt16 | 0 < c ∧ c < maxConns}.Finite := by
      rw [← coe_freeIndexes_new]
      exact Finset.finite_toSet _
    -- as many live channels as indexes in the range are all of them
    have hall := Set.eq_of_subset_of_ncard_le hrange hcard.ge hfinite
    refine List.eq_nil_iff_forall_not_mem.mpr fun c hc => ?_
    obtain ⟨hc, hnone⟩ := (h.free c).mp hc
    have hlive : c ∈ {c : UInt16 | (net.getChannel c).isSome} := by
      rw [hall]
      exact hc
    change (net.getChannel c).isSome at hlive
    rw [hnone] at hlive
    cases hlive

end NetServer

namespace ChannelIndexes

/-- What can happen to the channels. Removals are those of `RemoveChannel`. -/
inductive Event
  | connect
  | setPeerType (channelIndex : UInt16) (peerType : PeerType)
  | setPeerIndex (channelIndex : UInt16) (peerIndex : UInt8)
  | setConnState (channelIndex : UInt16) (connState : ConnState)
  | remove (channelIndex : UInt16)

variable (build : Build) (maxConns : UInt16)

/-- Live channels change, and a channel of the map is removed once it is disconnected. -/
def enabled (net : NetServer) : Event → Prop
  | .connect => True
  | .setPeerType c _ | .setPeerIndex c _ | .setConnState c _ => (net.getChannel c).isSome
  | .remove c => ∃ channel, net.getChannel c = some channel ∧ channel.connState = .disconnected

/-- What a member function does through a pointer to a channel of the map. -/
def onChannel (net : NetServer) (c : UInt16) (f : NetChannel → Except Fault NetServer) :
    Except Fault NetServer :=
  match net.getChannel c with
  | none => .error .nullPointer
  | some channel => f channel

def step (net : NetServer) : Event → Except Fault NetServer
  | .connect => .ok net.onConnect.1
  | .setPeerType c t => onChannel net c fun channel => .ok (net.setChannel c (channel.setPeerType t))
  | .setPeerIndex c i =>
    onChannel net c fun channel => .ok (net.setChannel c (channel.setPeerIndex i))
  | .setConnState c connState =>
    onChannel net c fun channel => .ok (net.setChannel c { channel with connState })
  | .remove c => onChannel net c (net.removeChannel build)

def system : Run.System NetServer Event Fault where
  init := .new maxConns
  enabled := enabled
  step := step build

variable {build maxConns} {net : NetServer}

theorem onChannel_eq {c : UInt16} {channel : NetChannel} (hc : net.getChannel c = some channel)
    (f : NetChannel → Except Fault NetServer) : onChannel net c f = f channel := by
  rw [onChannel, hc]

/-- A setter that keeps the channel index. -/
theorem setter_partitioned (h : net.Partitioned maxConns) {c : UInt16}
    (hc : (net.getChannel c).isSome) (f : NetChannel → NetChannel)
    (hf : ∀ channel, (f channel).getChannelIndex = channel.getChannelIndex) :
    ∃ net', (onChannel net c fun channel => .ok (net.setChannel c (f channel))) = .ok net' ∧
      net'.Partitioned maxConns := by
  obtain ⟨channel, hchannel⟩ := Option.isSome_iff_exists.mp hc
  exact ⟨_, onChannel_eq hchannel _, h.setChannel hchannel (hf channel)⟩

/-- Every event keeps the partition, and no assertion fails. -/
theorem step_partitioned {e : Event} (h : net.Partitioned maxConns) (henabled : enabled net e) :
    ∃ net', step build net e = .ok net' ∧ net'.Partitioned maxConns := by
  cases e with
  | connect =>
    refine ⟨_, rfl, ?_⟩
    rcases NetServer.onConnect_cases net with hrefused | ⟨idx, rest, hfree, haccepted⟩
    · rwa [hrefused]
    · rw [haccepted]
      exact h.give hfree (NetChannel.getChannelIndex_setChannelIndex _ idx)
  | setPeerType c t => exact setter_partitioned h henabled _ fun channel => by simp
  | setPeerIndex c i => exact setter_partitioned h henabled _ fun channel => by simp
  | setConnState c connState =>
    exact setter_partitioned h henabled (fun channel => { channel with connState }) fun _ => rfl
  | remove c =>
    obtain ⟨channel, hchannel, hstate⟩ := henabled
    obtain ⟨net', hremove, hnet'⟩ := h.removeChannel build hchannel hstate
    exact ⟨net', (onChannel_eq hchannel _).trans hremove, hnet'⟩

theorem runs_partitioned {es : List Event} {r : Except Fault NetServer}
    (h : (system build maxConns).Runs es r) : ∃ net, r = .ok net ∧ net.Partitioned maxConns :=
  @Run.System.invariant _ _ _ (system build maxConns) (fun _ net => net.Partitioned maxConns)
    (NetServer.new_partitioned maxConns) (fun _ _ _ hinv henabled => step_partitioned hinv henabled)
    es r h

/-- For every number of connections and every run: the free indexes have no duplicates; they and
    the keys of the map are disjoint and together the indexes from 1 up to the number of
    connections; every channel of the map has its key as its channel index; and a connection is
    refused exactly when that many channels are live. -/
theorem indexes_partitioned (build : Build) (maxConns : UInt16) (es : List Event)
    (r : Except Fault NetServer) (h : (system build maxConns).Runs es r) :
    ∃ net, r = .ok net ∧ net.freeIndexes.Nodup ∧
      (∀ c ∈ net.freeIndexes, net.getChannel c = none) ∧
      (∀ c, c ∈ net.freeIndexes ∨ (net.getChannel c).isSome ↔ 0 < c ∧ c < maxConns) ∧
      (∀ c channel, net.getChannel c = some channel → channel.getChannelIndex = c) ∧
      (net.onConnect.2 = none ↔
        Set.ncard {c | (net.getChannel c).isSome} = maxConns.toNat - 1) := by
  obtain ⟨net, hr, hnet⟩ := runs_partitioned h
  refine ⟨net, hr, hnet.nodup, fun c hc => ((hnet.free c).mp hc).2, fun c => ?_,
    fun c channel hc => (hnet.index c channel hc).2, hnet.refused_iff⟩
  rw [hnet.free]
  cases hc : net.getChannel c with
  | none => simp
  | some channel => simpa using (hnet.index c channel hc).1

/-- Two connections, one of which is lost and removed, and two more: the first of them gets the
    index of the one that was removed, and the second is refused. -/
theorem indexes_partitioned_removed :
    ∃ removed net, (system .debug 3).Runs [.connect, .connect, .setPeerType 1 .worldserver,
        .setPeerIndex 1 255, .setConnState 1 .disconnected, .remove 1] (.ok removed) ∧
      removed.getChannel 1 = none ∧ removed.onConnect.2 = some 1 ∧
      (system .debug 3).Runs [.connect, .connect, .setPeerType 1 .worldserver,
        .setPeerIndex 1 255, .setConnState 1 .disconnected, .remove 1, .connect, .connect]
        (.ok net) ∧
      (net.getChannel 1).isSome ∧ net.freeIndexes.Nodup ∧ net.onConnect.2 = none := by
  have hfirst : (system .debug 3).Runs [.connect] (.ok _) := .concat .nil trivial
  have hsecond := hfirst.concat (l := Event.connect) trivial
  have htype := hsecond.concat (l := Event.setPeerType 1 .worldserver) rfl
  have hindex := htype.concat (l := Event.setPeerIndex 1 255) rfl
  have hstate := hindex.concat (l := Event.setConnState 1 .disconnected) rfl
  have hremoved := hstate.concat (l := Event.remove 1) ⟨_, rfl, rfl⟩
  have hthird := hremoved.concat (l := Event.connect) trivial
  have hrefused := hthird.concat (l := Event.connect) trivial
  obtain ⟨net, hr, hnodup, -⟩ := indexes_partitioned .debug 3 _ _ hrefused
  rw [hr] at hrefused
  cases hr
  exact ⟨_, _, hremoved, rfl, rfl, hrefused, rfl, hnodup, rfl⟩

end ChannelIndexes

end TerraX
