import Libtock.Core.Along
import Libtock.Udp.State

/-!
# Where a packet goes and where it comes from

The kernel reads the two addresses of a packet from whatever buffer is in the configuration slot.
`udp_bind` puts the buffer of the library there; `udp_list_ifaces` replaces it by an array of the
application, and nothing puts it back before the next `udp_bind`.
-/

namespace Udp

open Core Tock

/-- The library, what the kernel holds, and the memory of the application. -/
structure World where
  state : State
  slots : Slots (Subscription Upcall (Option Unit)) Buffer
  memory : Memory 32
  /-- The address of the last `udp_bind`. -/
  bound : Option SockAddr
  /-- The array of the last `udp_list_ifaces` after it. -/
  listed : Option (BitVec 32 × U32)

/-- Calls whose system calls succeed, and writes of the application and the kernel to the memory of
the application. While `udp_send_to` waits it has nothing left to do here, so a call made in its
`yield_for` is one that comes later. -/
inductive Action
  | bind (addr : SockAddr) (bufBindCfg : BitVec 32) (k : {k : Kernel // k.Accepts})
  | listIfaces (ifaces : Option (BitVec 32)) (len : U32) (k : {k : Kernel // k.Accepts})
  | recv (callback : Option Ptr) (buf : BitVec 32) (len : U32) (k : {k : Kernel // k.Accepts})
  | close (k : {k : Kernel // k.Accepts})
  | sendTo (buf : BitVec 32) (len : U32) (dstAddr : SockAddr) (k : {k : Kernel // k.Accepts})
  | write (memory : Memory 32)

namespace World

def initial (memory : Memory 32) : World where
  state := Udp.initial
  slots := Slots.empty
  memory := memory
  bound := none
  listed := none

def readSockAddr (memory : Memory 32) (p : BitVec 32) : SockAddr :=
  ⟨memory.load 16 p, memory.load 2 (p + 16)⟩

/-- The two addresses in the buffer that the configuration slot holds. -/
def config (w : World) : Option (SockAddr × SockAddr) :=
  match w.slots.readwrite (udpDriver, allowCfg) with
  | some .bufTxCfg => some (w.state.source, w.state.destination)
  | some .zeroAddr => some (⟨0, 0⟩, ⟨0, 0⟩)
  | some (.app p len) =>
    if 2 * sizeofSockAddr ≤ len then
      some (readSockAddr w.memory p, readSockAddr w.memory (p + sizeofSockAddr))
    else none
  | none => none

/-- A system call; if it is `COMMAND_SEND`, the kernel reads the configuration. -/
def issue (w : World) (i : Issued (Subscription Upcall (Option Unit)) Buffer) :
    World × List (Option (SockAddr × SockAddr)) :=
  ({ w with slots := w.slots.issue i },
    match i with
    | .command driver num _ _ _ =>
      if driver = udpDriver ∧ num = commandSend then [w.config] else []
    | _ => [])

def issueAll (w : World) :
    List (Issued (Subscription Upcall (Option Unit)) Buffer) →
      World × List (Option (SockAddr × SockAddr))
  | [] => (w, [])
  | i :: is =>
    let (w, es) := w.issue i
    let (w, es') := w.issueAll is
    (w, es ++ es')

/-- The world after an action, and the configurations read by `COMMAND_SEND`. -/
def step (w : World) : Action → World × List (Option (SockAddr × SockAddr))
  | .bind addr bufBindCfg k =>
    let ((_, state), issued) := (udpBind addr bufBindCfg w.state).run k.1
    { w with state, bound := some addr, listed := none }.issueAll issued
  | .listIfaces ifaces len k =>
    let (_, issued) := (udpListIfaces ifaces len).run k.1
    { w with listed := (ifaces.map fun p => (p, len)).or w.listed }.issueAll issued
  | .recv callback buf len k => w.issueAll ((udpRecv callback buf len).run k.1).2
  | .close k => w.issueAll (udpClose.run k.1).2
  | .sendTo buf len dstAddr k =>
    let ((_, state), issued) := (udpSendTo buf len dstAddr () w.state).run k.1
    { w with state }.issueAll issued
  | .write memory => ({ w with memory }, [])

def next (w : World) (a : Action) : World := (w.step a).1

/-! ### The condition -/

/-- The packets of a call leave with the bound source and the requested destination. -/
def LeavesRight (w : World) (a : Action) : Prop :=
  match a with
  | .sendTo _ _ dstAddr _ =>
    ∀ addr ∈ w.bound, (w.step a).2 = [some (addr, dstAddr)]
  | _ => True

/-- No interfaces have been listed since the last `udp_bind`, or the array they were listed in
happens to hold the right addresses. -/
def NotListed (w : World) (a : Action) : Prop :=
  match a with
  | .sendTo _ _ dstAddr _ =>
    ∀ addr ∈ w.bound, ∀ array ∈ w.listed,
      2 * sizeofSockAddr ≤ array.2 * sizeofIpv6Addr ∧
        readSockAddr w.memory array.1 = addr ∧
        readSockAddr w.memory (array.1 + sizeofSockAddr) = dstAddr
  | _ => True

/-- After a `udp_bind` the library's buffer has the source in it, and the configuration slot holds
that buffer or the array that replaced it. -/
structure Configured (w : World) : Prop where
  source : ∀ addr ∈ w.bound, w.state.source = addr
  slot : w.bound.isSome → w.slots.readwrite (udpDriver, allowCfg) =
    some (match w.listed with
      | some (p, len) => .app p (len * sizeofIpv6Addr)
      | none => .bufTxCfg)

variable {w : World} {k : Kernel}

/-! ### What the functions do -/

lemma issueAll_fst (w : World) (is : List (Issued (Subscription Upcall (Option Unit)) Buffer)) :
    (w.issueAll is).1 = { w with slots := is.foldl Slots.issue w.slots } := by
  induction is generalizing w with
  | nil => rfl
  | cons i is ih => exact ih (w.issue i).1

lemma udpBind_run (hk : k.Accepts) (addr : SockAddr) (bufBindCfg : BitVec 32) (s : State) :
    (udpBind (δ := Unit) addr bufBindCfg s).run k =
      (((k.command udpDriver commandBind 0 0).toReturncode, { s with source := addr }),
        [.allowReadwrite udpDriver allowRxCfg (.app bufBindCfg (2 * sizeofSockAddr)) .accepted,
          .allowReadwrite udpDriver allowCfg .bufTxCfg .accepted,
          .command udpDriver commandBind 0 0 (k.command udpDriver commandBind 0 0)]) := by
  simp [udpBind, hk.allowReadwrite]

lemma udpListIfaces_issued (hk : k.Accepts) (ifaces : Option (BitVec 32)) (len : U32) :
    ((udpListIfaces (δ := Unit) ifaces len).run k).2 =
      match ifaces with
      | none => []
      | some p =>
        [.allowReadwrite udpDriver allowCfg (.app p (len * sizeofIpv6Addr)) .accepted,
          .command udpDriver commandGetIfaces len 0
            (k.command udpDriver commandGetIfaces len 0)] := by
  cases ifaces with
  | none => rfl
  | some p => simp [udpListIfaces, hk.allowReadwrite]

/-- The functions that receive and close leave the configuration slot alone. -/
lemma readwrite_udpRecv (slots : Slots (Subscription Upcall (Option Unit)) Buffer)
    (callback : Option Ptr) (buf : BitVec 32) (len : U32) (hk : k.Accepts) :
    (((udpRecv callback buf len).run k).2.foldl Slots.issue slots).readwrite
        (udpDriver, allowCfg) =
      slots.readwrite (udpDriver, allowCfg) := by
  simp [udpRecv, hk.allowReadwrite, allowCfg, allowRx]

lemma readwrite_udpClose (slots : Slots (Subscription Upcall (Option Unit)) Buffer)
    (hk : k.Accepts) :
    ((udpClose.run k).2.foldl Slots.issue slots).readwrite (udpDriver, allowCfg) =
      slots.readwrite (udpDriver, allowCfg) := by
  simp only [udpClose, Sys.bind_run, Sys.allowReadwrite_run, hk.allowReadwrite]
  split <;> simp [allowCfg, allowRxCfg]

/-! ### What the kernel reads -/

lemma configured_initial (memory : Memory 32) : Configured (initial memory) := ⟨nofun, nofun⟩

lemma Configured.next (h : Configured w) (a : Action) : Configured (w.next a) := by
  obtain ⟨hsource, hslot⟩ := h
  cases a with
  | bind addr bufBindCfg k =>
    have hspec := udpBind_run k.2 addr bufBindCfg w.state
    simp only [World.next, step, hspec, issueAll_fst]
    exact ⟨by simp, by simp [allowCfg, allowRxCfg]⟩
  | listIfaces ifaces len k =>
    simp only [World.next, step, issueAll_fst, udpListIfaces_issued k.2]
    cases ifaces with
    | none => exact ⟨hsource, hslot⟩
    | some p => exact ⟨hsource, by simp⟩
  | recv callback buf len k =>
    simp only [World.next, step, issueAll_fst]
    exact ⟨hsource, fun hb => (readwrite_udpRecv _ _ _ _ k.2).trans (hslot hb)⟩
  | close k =>
    simp only [World.next, step, issueAll_fst]
    exact ⟨hsource, fun hb => (readwrite_udpClose _ k.2).trans (hslot hb)⟩
  | sendTo buf len dstAddr k =>
    have hrun := udpSendTo_run_accepted buf len dstAddr () w.state (k.2.allowReadonly _ _)
      (k.2.subscribe _ _)
    simp only [World.next, step, issueAll_fst, hrun]
    exact ⟨hsource, fun hb => by simpa using hslot hb⟩
  | write memory => exact ⟨hsource, hslot⟩

/-- `udp_send_to` lets the kernel read the configuration once, the destination being set. -/
lemma step_sendTo (w : World) (buf : BitVec 32) (len : U32) (dstAddr : SockAddr)
    (k : {k : Kernel // k.Accepts}) :
    (w.step (.sendTo buf len dstAddr k)).2 =
      [{ w with state := { w.state with destination := dstAddr } }.config] := by
  have hrun := udpSendTo_run_accepted buf len dstAddr () w.state (k.2.allowReadonly _ _)
    (k.2.subscribe _ _)
  simp only [step, hrun]
  rfl

lemma Configured.leavesRight_iff (h : Configured w) (a : Action) :
    LeavesRight w a ↔ NotListed w a := by
  cases a with
  | sendTo buf len dstAddr k =>
    rw [LeavesRight, NotListed, step_sendTo, config]
    cases hb : w.bound with
    | none => simp
    | some addr =>
      have hsource := h.source addr hb
      have hslot := h.slot (by simp [hb])
      cases hl : w.listed with
      | none => simp [hslot, hl, hsource]
      | some array =>
        rw [hl] at hslot
        simp [hslot]
  | _ => exact Iff.rfl

/-- Every packet sent after a `udp_bind` leaves with the bound source and the requested destination,
exactly when no interfaces are listed in between. -/
theorem leavesRight_along_iff (memory : Memory 32) (calls : List Action) :
    Along next LeavesRight (initial memory) calls ↔
      Along next NotListed (initial memory) calls :=
  along_congr (I := Configured) (fun _ a hw _ => hw.next a) (fun _ a hw => hw.leavesRight_iff a)
    (configured_initial memory) calls

/-- Listing four interfaces between `udp_bind` and `udp_send_to`. -/
theorem leavesRight_along_fails :
    let k : {k : Kernel // k.Accepts} :=
      ⟨.steady .accepted .success, fun _ _ => rfl, fun _ _ => rfl, fun _ _ => rfl,
        fun _ _ _ _ => rfl⟩
    ¬ Along next LeavesRight (initial fun _ => 0)
        [.bind ⟨1, 1000⟩ 0x100 k, .listIfaces (some 0x200) 4 k, .sendTo 0x300 8 ⟨2, 2000⟩ k] := by
  intro k h
  have hsent := h.2.2.1 ⟨1, 1000⟩ rfl
  revert hsent
  decide

end World

end Udp
