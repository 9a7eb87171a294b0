import TerraX.Lib.Memory
import TerraX.Net.NetChannel

/-!
# The packet dispatcher

`PacketDispatcher`. A packet is handed to the handler of the message type whose name or full
name the packet carries. Descriptors, messages and `ParseFromArray` come from the protobuf
library, which is a parameter here: a type of message types, the fields that a message of
each type has, and the function that reads them out of a buffer.

## Main definitions

- `Descriptor` — what the dispatcher uses of a `gpb::Descriptor`
- `CallBack` — an entry of `m_mapCallBacks`
- `PacketDispatcher.regPacketHandler`, `PacketDispatcher.deliverPacket`

## Main results

- `PacketDispatcher.regPacketHandler_all` — the entries after handlers of several types
- `PacketDispatcher.deliverPacket_cases` — a handler runs, or nothing happens
- `PacketDispatcher.deliverPacket_of_named` — which handler runs
-/

namespace TerraX

open Memory

/-- The characters of a name. -/
def ascii (s : String) : List UInt8 := s.toList.map fun c => c.toNat.toUInt8

/-- What the dispatcher uses of a `gpb::Descriptor`. -/
structure Descriptor where
  package : List UInt8
  name : List UInt8
deriving DecidableEq, Repr

/-- `Descriptor::full_name`. -/
def Descriptor.fullName (desc : Descriptor) : List UInt8 :=
  if desc.package = [] then desc.name else desc.package ++ ascii "." ++ desc.name

/-- Whether a packet name is the name or the full name of a message type. -/
def Descriptor.Named (desc : Descriptor) (packetName : List UInt8) : Prop :=
  desc.name = packetName ∨ desc.fullName = packetName

instance (desc : Descriptor) (packetName : List UInt8) : Decidable (desc.Named packetName) := by
  unfold Descriptor.Named
  infer_instance

/-- An entry of `m_mapCallBacks`. All handlers take the channel index, the owner and the
    message; those that are registered with fewer arguments do not use the others. -/
structure CallBack {δ : Type} (Fields : δ → Type) (σ : Type) where
  packetType : δ
  run : UInt16 → Word → Fields packetType → σ → Except Fault σ

namespace PacketDispatcher

variable {δ σ : Type} {Fields : δ → Type} (build : Build) (descriptor : δ → Descriptor)
  (parse : (t : δ) → List UInt8 → ℕ → ℤ → Option (Fields t))

/-- `PacketDispatcher::RegPacketHandler`: an entry of the same type would be overwritten. -/
def regPacketHandler [DecidableEq δ] (callBacks : List (CallBack Fields σ)) (it : CallBack Fields σ) :
    Except Fault (List (CallBack Fields σ)) := do
  check build (∀ it' ∈ callBacks, it'.packetType ≠ it.packetType)
  return callBacks.filter (fun it' => decide (it'.packetType ≠ it.packetType)) ++ [it]

/-- Handlers of different types are all in the map. -/
theorem regPacketHandler_all [DecidableEq δ] {done its : List (CallBack Fields σ)}
    (h : ((done ++ its).map CallBack.packetType).Nodup) :
    its.foldlM (regPacketHandler build) done = .ok (done ++ its) := by
  induction its generalizing done with
  | nil => rw [List.append_nil]; rfl
  | cons it its ih =>
    have hnew : ∀ it' ∈ done, it'.packetType ≠ it.packetType := by
      intro it' hit' heq
      rw [List.map_append, List.map_cons, List.nodup_append] at h
      exact h.2.2 _ (List.mem_map_of_mem hit') _ List.mem_cons_self heq
    have hkeep : done.filter (fun it' => decide (it'.packetType ≠ it.packetType)) = done :=
      List.filter_eq_self.mpr fun it' hit' => decide_eq_true (hnew it' hit')
    have happend : done ++ it :: its = done ++ [it] ++ its := by simp
    have hstep : regPacketHandler build done it = .ok (done ++ [it]) := by
      rw [regPacketHandler, check_of build hnew, ok_bind, hkeep]
      rfl
    rw [List.foldlM_cons, hstep, ok_bind, happend]
    apply ih
    rwa [← happend]

/-- The handler is given the message, if `ParseFromArray` can read it. -/
def deliver (it : CallBack Fields σ) (packet : Dispatch) (s : σ) : Except Fault σ :=
  match parse it.packetType packet.buffer packet.packetMsg packet.msgSize with
  | none => do
    check build False
    return s
  | some msg => it.run packet.channelIndex packet.ownerInfo msg s

/-- `PacketDispatcher::DeliverPacket`, with the entries of the map as its iteration finds them. -/
def deliverPacket (callBacks : List (CallBack Fields σ)) (packet : Dispatch) (s : σ) :
    Except Fault σ :=
  match callBacks.find? fun it => decide ((descriptor it.packetType).Named packet.packetName) with
  | none => do
    -- There is no handler for the packet.
    check build False
    return s
  | some it => deliver build parse it packet s

/-- A handler runs on a message of the type that the packet names, or nothing happens. -/
theorem deliverPacket_cases {callBacks : List (CallBack Fields σ)} {packet : Dispatch} {s : σ}
    {r : Except Fault σ} (h : deliverPacket build descriptor parse callBacks packet s = r) :
    (∃ it ∈ callBacks, ∃ msg, (descriptor it.packetType).Named packet.packetName ∧
      parse it.packetType packet.buffer packet.packetMsg packet.msgSize = some msg ∧
      r = it.run packet.channelIndex packet.ownerInfo msg s) ∨
    r = .ok s ∨ r = .error .assertFailed := by
  have hcheck : (check build False >>= fun _ => .ok s) = .ok s ∨
      (check build False >>= fun _ => .ok s) = .error .assertFailed := by
    cases build with
    | debug => exact Or.inr rfl
    | release => exact Or.inl rfl
  subst h
  rw [deliverPacket]
  split
  · exact Or.inr hcheck
  · next it hfind =>
    rw [deliver]
    split
    · exact Or.inr hcheck
    · next msg hmsg =>
      have hnamed := List.find?_some hfind
      exact Or.inl ⟨it, List.mem_of_find?_eq_some hfind, msg, of_decide_eq_true hnamed, hmsg, rfl⟩

/-- The one handler of the message type that the packet names runs, if the message can be read. -/
theorem deliverPacket_of_named {callBacks : List (CallBack Fields σ)} {it : CallBack Fields σ}
    (hit : it ∈ callBacks) {packet : Dispatch}
    (hnamed : (descriptor it.packetType).Named packet.packetName)
    (honly : ∀ it' ∈ callBacks, (descriptor it'.packetType).Named packet.packetName → it' = it)
    {msg : Fields it.packetType}
    (hmsg : parse it.packetType packet.buffer packet.packetMsg packet.msgSize = some msg) (s : σ) :
    deliverPacket build descriptor parse callBacks packet s =
      it.run packet.channelIndex packet.ownerInfo msg s := by
  rw [deliverPacket]
  split
  · next hfind => exact absurd hnamed (by simpa using List.find?_eq_none.mp hfind it hit)
  · next it' hfind =>
    have hnamed' := List.find?_some hfind
    cases honly it' (List.mem_of_find?_eq_some hfind) (of_decide_eq_true hnamed')
    rw [deliver, hmsg]

/-- With assertions it returns only if a handler does. -/
theorem deliverPacket_debug {callBacks : List (CallBack Fields σ)} {packet : Dispatch} {s s' : σ}
    (h : deliverPacket .debug descriptor parse callBacks packet s = .ok s') :
    ∃ it ∈ callBacks, ∃ msg, (descriptor it.packetType).Named packet.packetName ∧
      parse it.packetType packet.buffer packet.packetMsg packet.msgSize = some msg ∧
      it.run packet.channelIndex packet.ownerInfo msg s = .ok s' := by
  rw [deliverPacket] at h
  split at h
  · cases h
  · next it hfind =>
    rw [deliver] at h
    split at h
    · cases h
    · next msg hmsg =>
      have hnamed := List.find?_some hfind
      exact ⟨it, List.mem_of_find?_eq_some hfind, msg, of_decide_eq_true hnamed, hmsg, h⟩

/-- Without assertions it never fails on its own. -/
theorem deliverPacket_release (callBacks : List (CallBack Fields σ)) (packet : Dispatch) (s : σ) :
    (∃ it ∈ callBacks, ∃ msg, (descriptor it.packetType).Named packet.packetName ∧
      deliverPacket .release descriptor parse callBacks packet s =
        it.run packet.channelIndex packet.ownerInfo msg s) ∨
    deliverPacket .release descriptor parse callBacks packet s = .ok s := by
  rw [deliverPacket]
  split
  · exact Or.inr rfl
  · next it hfind =>
    rw [deliver]
    split
    · exact Or.inr rfl
    · next msg hmsg =>
      have hnamed := List.find?_some hfind
      exact Or.inl ⟨it, List.mem_of_find?_eq_some hfind, msg, of_decide_eq_true hnamed, rfl⟩

end PacketDispatcher

end TerraX
