import Libtock.Upcalls.World

/-!
# No upcall writes to the stack of a function that has returned

A function leaves its local variable subscribed when it returns, on every path. That does no harm as
long as the slot has nothing more to deliver, and nothing is started on it before somebody else
subscribes. The run theorem asks this of every call and every return.
-/

namespace Upcalls

open Core Tock

/-! ### The condition -/

/-- No operation is started on a slot whose subscription is left over from a call that returned. -/
def Free (live : ℕ → Prop) (i : Slot) (s : Channels Slot ℕ) : Prop :=
  ∀ n ∈ s.owner i, live n

/-- A function that has subscribed its local variable waits, or returns when nothing is outstanding:
`r` is the answer to its command. -/
def Settled (i : Slot) (r : Response) (s : Channels Slot ℕ) : Prop :=
  r = .success ∨ r.isAccepted = false ∧ ¬ s.Active i

/-- What is asked of a call, for each way the kernel may answer. -/
def Call.Safe (k : Kernel) (live : ℕ → Prop) (s : Channels Slot ℕ) : Call → Prop
  | adcSingleSample channel =>
    (k.command Adc.driverNumAdc 1 (channel.setWidth 32) 0).isAccepted = true → Free live .adc s
  | adcContinuousSample channel frequency =>
    (k.command Adc.driverNumAdc 2 (channel.setWidth 32) frequency).isAccepted = true →
      Free live .adc s
  | adcBufferedSample channel frequency =>
    (k.command Adc.driverNumAdc 3 (channel.setWidth 32) frequency).isAccepted = true →
      Free live .adc s
  | adcContinuousBufferedSample channel frequency =>
    (k.command Adc.driverNumAdc 4 (channel.setWidth 32) frequency).isAccepted = true →
      Free live .adc s
  | adcSampleSync channel =>
    k.subscribe Adc.driverNumAdc 0 = .accepted →
      Settled .adc (k.command Adc.driverNumAdc 1 (channel.setWidth 32) 0) s
  | adcSampleBufferSync channel frequency _ _ =>
    k.subscribe Adc.driverNumAdc 0 = .accepted →
      if k.allowReadwrite Adc.driverNumAdc 0 = .accepted then
        Settled .adc (k.command Adc.driverNumAdc 3 (channel.setWidth 32) frequency) s
      else ¬ s.Active .adc
  | udpBind addr _ =>
    k.allowReadwrite Udp.udpDriver Udp.allowRxCfg = .accepted →
      k.allowReadwrite Udp.udpDriver Udp.allowCfg = .accepted →
      (k.command Udp.udpDriver Udp.commandBind 0 0).isAccepted = true →
      addr ≠ ⟨0, 0⟩ → Free live .udpRx s
  | udpSendTo _ _ _ =>
    k.allowReadonly Udp.udpDriver Udp.allowRoTx = .accepted →
      k.subscribe Udp.udpDriver Udp.subscribeTx = .accepted →
      k.command Udp.udpDriver Udp.commandSend 0 0 ≠ .success
  | ieee802154Send addr _ _ _ _ _ =>
    k.allowReadwrite Ieee802154.radioDriver (BitVec.ofNat 32 Ieee802154.allowCfg) = .accepted →
      k.allowReadonly Ieee802154.radioDriver Ieee802154.allowRoTx = .accepted →
      k.subscribe Ieee802154.radioDriver Ieee802154.subscribeTx = .accepted →
      Settled .radioTx
        (k.command Ieee802154.radioDriver Ieee802154.commandSend (addr.setWidth 32) 0) s
  | _ => True

namespace World

/-- The condition on a step. A function that waited returns when its slot has nothing more to
deliver, or somebody else has subscribed. -/
def Orderly (w : World) : Action → Prop
  | .call c k => c.Safe k (· ∈ w.stack) w.channels
  | .upcall _ _ => True
  | .test =>
    ∀ n ∈ w.stack.head?, w.fired n = true →
      ∀ i, w.channels.owner i = some n → ¬ w.channels.Active i

end World

/-! ### System calls -/

section

variable {b : Bool} {s : Channels Slot ℕ} {driver num arg1 arg2 : U32} {answer : Answer}

@[simp] lemma issue_command (r : Response) :
    issue b s (.command driver num arg1 arg2 r) =
      if r.isAccepted then accept b driver num s else s := rfl

@[simp] lemma issue_subscribe_refused (content : Option (Option ℕ)) (e : Failure) :
    issue b s (.subscribe driver num content (.refused e)) = s := rfl

@[simp] lemma issue_allowReadwrite (u : Unit) :
    issue b s (.allowReadwrite driver num u answer) = s := rfl

@[simp] lemma issue_allowReadonly (u : Unit) :
    issue b s (.allowReadonly driver num u answer) = s := rfl

@[simp] lemma issue_subscribe_adc (o : Option (Option ℕ)) :
    issue b s (.subscribe Adc.driverNumAdc 0#32 o .accepted) = s.assign .adc o.join := rfl

@[simp] lemma issue_subscribe_udpRx (o : Option (Option ℕ)) :
    issue b s (.subscribe Udp.udpDriver Udp.subscribeRx o .accepted) = s.assign .udpRx o.join :=
  rfl

@[simp] lemma issue_subscribe_udpTx (o : Option (Option ℕ)) :
    issue b s (.subscribe Udp.udpDriver Udp.subscribeTx o .accepted) = s.assign .udpTx o.join :=
  rfl

@[simp] lemma issue_subscribe_radioTx (o : Option (Option ℕ)) :
    issue b s (.subscribe Ieee802154.radioDriver Ieee802154.subscribeTx o .accepted) =
      s.assign .radioTx o.join := rfl

@[simp] lemma accept_singleSample : accept b Adc.driverNumAdc 1#32 s = s.start .adc := rfl

@[simp] lemma accept_continuousSample :
    accept b Adc.driverNumAdc 2#32 s = s.setOpen .adc true := rfl

@[simp] lemma accept_bufferedSample : accept b Adc.driverNumAdc 3#32 s = s.start .adc := rfl

@[simp] lemma accept_continuousBufferedSample :
    accept b Adc.driverNumAdc 4#32 s = s.setOpen .adc true := rfl

@[simp] lemma accept_stopSampling :
    accept b Adc.driverNumAdc 5#32 s = s.setOpen .adc false := rfl

@[simp] lemma accept_udpSend : accept b Udp.udpDriver Udp.commandSend s = s.start .udpTx := rfl

@[simp] lemma accept_udpBind :
    accept b Udp.udpDriver Udp.commandBind s = s.setOpen .udpRx b := rfl

@[simp] lemma accept_radioSend :
    accept b Ieee802154.radioDriver Ieee802154.commandSend s = s.start .radioTx := rfl

end

/-! ### Calls -/

/-- The channels after a call, and whether it waits. -/
def Call.result (c : Call) (n : ℕ) (statics : Statics) (k : Kernel) (s : Channels Slot ℕ) :
    Channels Slot ℕ × Bool :=
  let r := (c.program n statics).run k
  (r.2.foldl (issue c.binds) s, r.1.1.isWaiting)

/-- After call `n` the channels are sound for the calls that wait. -/
def Keeps (live : ℕ → Prop) (n : ℕ) (r : Channels Slot ℕ × Bool) : Prop :=
  if r.2 then r.1.Sound fun x => x = n ∨ live x else r.1.Sound live

variable {live : ℕ → Prop} {n : ℕ} {statics : Statics} {k : Kernel} {s : Channels Slot ℕ}
  {i : Slot}

lemma sound_assign_self (h : s.Sound live) :
    (s.assign i (some n)).Sound fun x => x = n ∨ live x :=
  (h.mono fun _ => .inr).assign fun _ hx => .inl (Option.some.inj hx).symm

lemma sound_assign_none (h : s.Sound live) : (s.assign i none).Sound live := h.assign nofun

lemma sound_start_self (h : s.Sound live) :
    ((s.assign i (some n)).start i).Sound fun x => x = n ∨ live x :=
  (sound_assign_self h).start fun _ hx => .inl (by simpa [Channels.assign, eq_comm] using hx)

lemma keeps_settled (h : s.Sound live) {r : Response} (hr : Settled i r s) :
    Keeps live n
      (if r.isAccepted = true then (s.assign i (some n)).start i else s.assign i (some n),
      decide (r = .success)) := by
  rcases hr with rfl | ⟨hrefused, hquiet⟩
  · exact sound_start_self h
  · have hne : r ≠ .success := by
      rintro rfl
      cases hrefused
    simp only [Keeps, hrefused, hne, decide_false, Bool.false_eq_true, if_false]
    exact h.assign_of_not_active hquiet _

/-! ### The ADC -/

lemma keeps_adcSetCallback (h : s.Sound live) (callback : Option Adc.Upcall) (args : Ptr) :
    Keeps live n ((Call.adcSetCallback callback args).result n statics k s) := by
  cases hs : k.subscribe Adc.driverNumAdc 0#32 with
  | refused e =>
    simpa [Call.result, Call.program, Call.finish, Adc.adcSetCallback, Issued.mapContent,
      Outcome.isWaiting, Keeps, hs] using h
  | accepted =>
    cases callback <;>
      simpa [Call.result, Call.program, Call.finish, Adc.adcSetCallback, Issued.mapContent,
        adcOwner, Userdata.owner, Outcome.isWaiting, Keeps, hs] using sound_assign_none h

lemma keeps_adcSetModeCallback (h : s.Sound live) (mode : Adc.AdcMode) (callback : Option Ptr)
    (args : Ptr) :
    Keeps live n ((Call.adcSetModeCallback mode callback args).result n statics k s) := by
  cases hs : k.subscribe Adc.driverNumAdc 0#32 with
  | refused e =>
    simpa [Call.result, Call.program, Adc.setModeCallback, Adc.adcSetCallback, Issued.mapContent,
      Outcome.isWaiting, Keeps, hs] using h
  | accepted =>
    simpa [Call.result, Call.program, Adc.setModeCallback, Adc.adcSetCallback, Issued.mapContent,
      adcOwner, Userdata.owner, Outcome.isWaiting, Keeps, hs] using sound_assign_none h

/-- A command that starts an operation. -/
lemma sound_accepted (h : s.Sound live) {r : Response} {t : Channels Slot ℕ}
    (ht : r.isAccepted = true → t.Sound live) :
    (if r.isAccepted = true then t else s).Sound live := by
  split
  · next hr => exact ht hr
  · exact h

lemma result_adcSampleSync (channel : Adc.U8) (hs : k.subscribe Adc.driverNumAdc 0#32 = .accepted) :
    (Call.adcSampleSync channel).result n statics k s =
      (if (k.command Adc.driverNumAdc 1#32 (channel.setWidth 32) 0#32).isAccepted = true then
          (s.assign .adc (some n)).start .adc else s.assign .adc (some n),
        decide (k.command Adc.driverNumAdc 1#32 (channel.setWidth 32) 0#32 = .success)) := by
  by_cases hc : k.command Adc.driverNumAdc 1#32 (channel.setWidth 32) 0#32 = .success <;>
    simp [Call.result, Call.program, Adc.adcSampleSync, Adc.adcSetCallback, Adc.adcSingleSample,
      Adc.adcCommand, Issued.mapContent, adcOwner, Userdata.owner, hs, hc, Outcome.isWaiting]

lemma keeps_adcSampleSync (h : s.Sound live) (channel : Adc.U8)
    (hsafe : (Call.adcSampleSync channel).Safe k live s) :
    Keeps live n ((Call.adcSampleSync channel).result n statics k s) := by
  cases hs : k.subscribe Adc.driverNumAdc 0#32 with
  | accepted =>
    rw [result_adcSampleSync channel hs]
    exact keeps_settled h (hsafe hs)
  | refused e =>
    simpa [Call.result, Call.program, Adc.adcSampleSync, Adc.adcSetCallback, Issued.mapContent,
      Outcome.isWaiting, Keeps, hs] using h

lemma result_adcSampleBufferSync (channel : Adc.U8) (frequency : U32) (buffer : Ptr) (length : U32)
    (hs : k.subscribe Adc.driverNumAdc 0#32 = .accepted)
    (ha : k.allowReadwrite Adc.driverNumAdc 0#32 = .accepted) :
    (Call.adcSampleBufferSync channel frequency buffer length).result n statics k s =
      (if (k.command Adc.driverNumAdc 3#32 (channel.setWidth 32) frequency).isAccepted = true then
          (s.assign .adc (some n)).start .adc else s.assign .adc (some n),
        decide (k.command Adc.driverNumAdc 3#32 (channel.setWidth 32) frequency = .success)) := by
  by_cases hc : k.command Adc.driverNumAdc 3#32 (channel.setWidth 32) frequency = .success <;>
    simp [Call.result, Call.program, Adc.adcSampleBufferSync, Adc.adcSetCallback, Adc.adcSetBuffer,
      Adc.adcBufferedSample, Adc.adcCommand, Issued.mapContent, adcOwner, Userdata.owner, hs, ha,
      hc, Outcome.isWaiting]

lemma keeps_adcSampleBufferSync (h : s.Sound live) (channel : Adc.U8) (frequency : U32)
    (buffer : Ptr) (length : U32)
    (hsafe : (Call.adcSampleBufferSync channel frequency buffer length).Safe k live s) :
    Keeps live n
      ((Call.adcSampleBufferSync channel frequency buffer length).result n statics k s) := by
  cases hs : k.subscribe Adc.driverNumAdc 0#32 with
  | refused e =>
    simpa [Call.result, Call.program, Adc.adcSampleBufferSync, Adc.adcSetCallback,
      Issued.mapContent, Outcome.isWaiting, Keeps, hs] using h
  | accepted =>
    cases ha : k.allowReadwrite Adc.driverNumAdc 0#32 with
    | accepted =>
      rw [result_adcSampleBufferSync channel frequency buffer length hs ha]
      exact keeps_settled h ((if_pos ha).mp (hsafe hs))
    | refused e =>
      have hquiet : ¬ s.Active .adc := by simpa [ha] using hsafe hs
      simpa [Call.result, Call.program, Adc.adcSampleBufferSync, Adc.adcSetCallback,
        Adc.adcSetBuffer, Issued.mapContent, adcOwner, Userdata.owner, Outcome.isWaiting, Keeps, hs,
        ha] using h.assign_of_not_active hquiet (some n)

/-! ### UDP -/

lemma keeps_udpBind (h : s.Sound live) (addr : Udp.SockAddr) (bufBindCfg : BitVec 32)
    (hsafe : (Call.udpBind addr bufBindCfg).Safe k live s) :
    Keeps live n ((Call.udpBind addr bufBindCfg).result n statics k s) := by
  cases ha : k.allowReadwrite Udp.udpDriver Udp.allowRxCfg with
  | refused e =>
    simpa [Call.result, Call.program, Udp.udpBind, Issued.mapContent, Outcome.isWaiting, Keeps,
      ha] using h
  | accepted =>
    cases hb : k.allowReadwrite Udp.udpDriver Udp.allowCfg with
    | refused e =>
      simpa [Call.result, Call.program, Udp.udpBind, Issued.mapContent, Outcome.isWaiting, Keeps,
        ha, hb] using h
    | accepted =>
      have hbound := sound_accepted (t := s.setOpen .udpRx (Call.udpBind addr bufBindCfg).binds) h
        fun hr => h.setOpen fun haddr => hsafe ha hb hr (of_decide_eq_true haddr)
      simpa [Call.result, Call.program, Udp.udpBind, Issued.mapContent, Outcome.isWaiting, Keeps,
        ha, hb] using hbound

lemma keeps_udpClose (h : s.Sound live) :
    Keeps live n (Call.udpClose.result n statics k s) := by
  have hclosed : (s.setOpen .udpRx false).Sound live := h.setOpen nofun
  cases ha : k.allowReadwrite Udp.udpDriver Udp.allowRxCfg with
  | refused e =>
    simpa [Call.result, Call.program, Call.finish, Udp.udpClose, Issued.mapContent,
      Outcome.isWaiting, Keeps, ha] using h
  | accepted =>
    by_cases hc : k.command Udp.udpDriver Udp.commandBind 0#32 0#32 = .success
    · have hnone := sound_assign_none (i := .udpRx) hclosed
      cases hs : k.subscribe Udp.udpDriver Udp.subscribeRx <;>
        simp [Call.result, Call.program, Call.finish, Call.binds, Udp.udpClose,
          Issued.mapContent, Response.isAccepted, Outcome.isWaiting, Keeps, ha, hs, hc, hclosed,
          hnone]
    · simpa [Call.result, Call.program, Call.finish, Call.binds, Udp.udpClose, Issued.mapContent,
        Outcome.isWaiting, Keeps, ha, hc] using sound_accepted h fun _ => hclosed

lemma keeps_udpRecv (h : s.Sound live) (callback : Option Ptr) (buf : BitVec 32) (len : U32) :
    Keeps live n ((Call.udpRecv callback buf len).result n statics k s) := by
  cases ha : k.allowReadwrite Udp.udpDriver Udp.allowRx with
  | refused e =>
    simpa [Call.result, Call.program, Call.finish, Udp.udpRecv, Issued.mapContent,
      Outcome.isWaiting, Keeps, ha] using h
  | accepted =>
    cases hs : k.subscribe Udp.udpDriver Udp.subscribeRx with
    | refused e =>
      simpa [Call.result, Call.program, Call.finish, Udp.udpRecv, Issued.mapContent,
        Outcome.isWaiting, Keeps, ha, hs] using h
    | accepted =>
      cases callback <;>
        simpa [Call.result, Call.program, Call.finish, Udp.udpRecv, Issued.mapContent, udpOwner,
          Outcome.isWaiting, Keeps, ha, hs] using sound_assign_none h

lemma keeps_udpRecvSync (h : s.Sound live) (buf : BitVec 32) (len : U32) :
    Keeps live n ((Call.udpRecvSync buf len).result n statics k s) := by
  cases ha : k.allowReadwrite Udp.udpDriver Udp.allowRx with
  | refused e =>
    simpa [Call.result, Call.program, Udp.udpRecvSync, Issued.mapContent, Outcome.isWaiting, Keeps,
      ha] using h
  | accepted =>
    cases hs : k.subscribe Udp.udpDriver Udp.subscribeRx with
    | refused e =>
      simpa [Call.result, Call.program, Udp.udpRecvSync, Issued.mapContent, Outcome.isWaiting,
        Keeps, ha, hs] using h
    | accepted =>
      simpa [Call.result, Call.program, Udp.udpRecvSync, Issued.mapContent, udpOwner,
        Userdata.owner, Outcome.isWaiting, Keeps, ha, hs] using sound_assign_self h

lemma keeps_udpSendTo (h : s.Sound live) (buf : BitVec 32) (len : U32) (dstAddr : Udp.SockAddr)
    (hsafe : (Call.udpSendTo buf len dstAddr).Safe k live s) :
    Keeps live n ((Call.udpSendTo buf len dstAddr).result n statics k s) := by
  cases ha : k.allowReadonly Udp.udpDriver Udp.allowRoTx with
  | refused e =>
    simpa [Call.result, Call.program, Udp.udpSendTo_run_allow_refused, Issued.mapContent,
      Outcome.isWaiting, Keeps, ha] using h
  | accepted =>
    cases hs : k.subscribe Udp.udpDriver Udp.subscribeTx with
    | refused e =>
      simpa [Call.result, Call.program, Udp.udpSendTo_run_subscribe_refused, Issued.mapContent,
        Outcome.isWaiting, Keeps, ha, hs] using h
    | accepted =>
      have hc : k.command Udp.udpDriver Udp.commandSend 0#32 0#32 ≠ .success := hsafe ha hs
      have hsent := sound_accepted (r := k.command Udp.udpDriver Udp.commandSend 0#32 0#32)
        (sound_assign_self (i := .udpTx) (n := n) h) fun _ => sound_start_self (i := .udpTx) h
      simpa [Call.result, Call.program, Udp.udpSendTo_run_accepted, Issued.mapContent, udpOwner,
        Userdata.owner, Outcome.isWaiting, Keeps, ha, hs, hc] using hsent

/-! ### The radio -/

lemma result_ieee802154Send (addr : BitVec 16) (level keyIdMode : U32) (keyId : ℕ → BitVec 8)
    (payload : Ieee802154.Addr) (len : BitVec 8)
    (ha : k.allowReadwrite Ieee802154.radioDriver (BitVec.ofNat 32 Ieee802154.allowCfg) = .accepted)
    (hb : k.allowReadonly Ieee802154.radioDriver Ieee802154.allowRoTx = .accepted)
    (hs : k.subscribe Ieee802154.radioDriver Ieee802154.subscribeTx = .accepted) :
    (Call.ieee802154Send addr level keyIdMode keyId payload len).result n statics k s =
      (if (k.command Ieee802154.radioDriver Ieee802154.commandSend (addr.setWidth 32)
            0#32).isAccepted = true then
          (s.assign .radioTx (some n)).start .radioTx else s.assign .radioTx (some n),
        decide (k.command Ieee802154.radioDriver Ieee802154.commandSend (addr.setWidth 32) 0#32 =
          .success)) := by
  by_cases hc : k.command Ieee802154.radioDriver Ieee802154.commandSend (addr.setWidth 32) 0#32 =
      .success <;>
    simp [Call.result, Call.program, Ieee802154.ieee802154Send, Issued.mapContent, Userdata.owner,
      ha, hb, hs, hc, Outcome.isWaiting]

lemma keeps_ieee802154Send (h : s.Sound live) (addr : BitVec 16) (level keyIdMode : U32)
    (keyId : ℕ → BitVec 8) (payload : Ieee802154.Addr) (len : BitVec 8)
    (hsafe : (Call.ieee802154Send addr level keyIdMode keyId payload len).Safe k live s) :
    Keeps live n ((Call.ieee802154Send addr level keyIdMode keyId payload len).result n statics k
      s) := by
  cases ha : k.allowReadwrite Ieee802154.radioDriver (BitVec.ofNat 32 Ieee802154.allowCfg) with
  | refused e =>
    simpa [Call.result, Call.program, Ieee802154.ieee802154Send, Issued.mapContent,
      Outcome.isWaiting, Keeps, ha] using h
  | accepted =>
    cases hb : k.allowReadonly Ieee802154.radioDriver Ieee802154.allowRoTx with
    | refused e =>
      simpa [Call.result, Call.program, Ieee802154.ieee802154Send, Issued.mapContent,
        Outcome.isWaiting, Keeps, ha, hb] using h
    | accepted =>
      cases hs : k.subscribe Ieee802154.radioDriver Ieee802154.subscribeTx with
      | refused e =>
        simpa [Call.result, Call.program, Ieee802154.ieee802154Send, Issued.mapContent,
          Outcome.isWaiting, Keeps, ha, hb, hs] using h
      | accepted =>
        rw [result_ieee802154Send addr level keyIdMode keyId payload len ha hb hs]
        exact keeps_settled h (hsafe ha hb hs)

/-! ### Any call -/

lemma Call.keeps (h : s.Sound live) (c : Call) (hsafe : c.Safe k live s) :
    Keeps live n (c.result n statics k s) := by
  cases c with
  | adcSetCallback callback args => exact keeps_adcSetCallback h callback args
  | adcSetModeCallback mode callback args => exact keeps_adcSetModeCallback h mode callback args
  | adcSetBuffer buffer len =>
    simpa [result, program, finish, Adc.adcSetBuffer, Issued.mapContent, Outcome.isWaiting, Keeps]
      using h
  | adcSetDoubleBuffer buffer len =>
    simpa [result, program, finish, Adc.adcSetDoubleBuffer, Issued.mapContent, Outcome.isWaiting,
      Keeps] using h
  | adcSingleSample channel =>
    simpa [result, program, finish, Adc.adcSingleSample, Adc.adcCommand, Issued.mapContent,
      Outcome.isWaiting, Keeps] using sound_accepted h fun hr => h.start (hsafe hr)
  | adcContinuousSample channel frequency =>
    simpa [result, program, finish, Adc.adcContinuousSample, Adc.adcCommand, Issued.mapContent,
      Outcome.isWaiting, Keeps] using sound_accepted h fun hr => h.setOpen fun _ => hsafe hr
  | adcBufferedSample channel frequency =>
    simpa [result, program, finish, Adc.adcBufferedSample, Adc.adcCommand, Issued.mapContent,
      Outcome.isWaiting, Keeps] using sound_accepted h fun hr => h.start (hsafe hr)
  | adcContinuousBufferedSample channel frequency =>
    simpa [result, program, finish, Adc.adcContinuousBufferedSample, Adc.adcCommand,
      Issued.mapContent, Outcome.isWaiting, Keeps]
      using sound_accepted h fun hr => h.setOpen fun _ => hsafe hr
  | adcStopSampling =>
    have hstopped : (s.setOpen .adc false).Sound live := h.setOpen nofun
    simpa [result, program, finish, Adc.adcStopSampling, Adc.adcCommand, Issued.mapContent,
      Outcome.isWaiting, Keeps] using sound_accepted h fun _ => hstopped
  | adcSampleSync channel => exact keeps_adcSampleSync h channel hsafe
  | adcSampleBufferSync channel frequency buffer length =>
    exact keeps_adcSampleBufferSync h channel frequency buffer length hsafe
  | udpBind addr bufBindCfg => exact keeps_udpBind h addr bufBindCfg hsafe
  | udpClose => exact keeps_udpClose h
  | udpRecv callback buf len => exact keeps_udpRecv h callback buf len
  | udpRecvSync buf len => exact keeps_udpRecvSync h buf len
  | udpSendTo buf len dstAddr => exact keeps_udpSendTo h buf len dstAddr hsafe
  | ieee802154Send addr level keyIdMode keyId payload len =>
    exact keeps_ieee802154Send h addr level keyIdMode keyId payload len hsafe

/-! ### Runs -/

namespace World

/-- The owner of every slot that can deliver waits. -/
def Sound (w : World) : Prop :=
  w.channels.Sound (· ∈ w.stack) ∧ ∀ n ∈ w.stack, n < w.calls

lemma sound_initial (statics : Statics) : (initial statics).Sound :=
  ⟨nofun, nofun⟩

variable {w w' : World} {a : Action} {es : List Unit}

lemma step_call {c : Call} {k : Kernel} (h : w.step (.call c k) = some w') :
    w'.channels = (c.result w.calls w.statics k w.channels).1 ∧
      w'.stack = (if (c.result w.calls w.statics k w.channels).2 then w.calls :: w.stack
        else w.stack) ∧
      w'.calls = w.calls + 1 := by
  cases h
  exact ⟨rfl, rfl, rfl⟩

lemma step_upcall {i : Slot} {oneShot : Bool} (h : w.step (.upcall i oneShot) = some w') :
    w.channels.Active i ∧ w'.stack = w.stack ∧ w'.calls = w.calls ∧
      (w'.channels = w.channels ∨ w'.channels = w.channels.finish i) := by
  cases oneShot with
  | false =>
    by_cases hopen : w.channels.isOpen i = true
    · simp only [step, Bool.false_eq_true, hopen, if_true, if_false] at h
      cases h
      exact ⟨.inr hopen, rfl, rfl, .inl rfl⟩
    · simp [step, hopen] at h
  | true =>
    by_cases hdue : 0 < w.channels.due i
    · simp only [step, hdue, if_true] at h
      cases h
      exact ⟨.inl hdue, rfl, rfl, .inr rfl⟩
    · simp [step, hdue] at h

lemma step_test (h : w.step .test = some w') :
    ∃ n, w.stack = n :: w'.stack ∧ w.fired n = true ∧ w'.channels = w.channels ∧
      w'.calls = w.calls := by
  cases hstack : w.stack with
  | nil => simp [step, hstack] at h
  | cons n stack =>
    simp only [step, hstack] at h
    split at h
    · next hfired =>
      cases h
      exact ⟨n, rfl, hfired, rfl, rfl⟩
    · cases h

lemma Sound.step (h : w.Sound) (hw : Guarded Step Orderly w a w' es) : w'.Sound := by
  obtain ⟨hord, hstep, rfl⟩ := hw
  cases a with
  | call c k =>
    obtain ⟨hchannels, hstack, hcalls⟩ := step_call hstep
    have hkeeps : Keeps (· ∈ w.stack) w.calls (c.result w.calls w.statics k w.channels) :=
      c.keeps h.1 hord
    rw [Keeps] at hkeeps
    rw [Sound, hchannels, hstack, hcalls]
    split at hkeeps
    · next hwaits =>
      rw [if_pos hwaits]
      refine ⟨by simpa only [List.mem_cons] using hkeeps, ?_⟩
      intro n hn
      rcases List.mem_cons.mp hn with rfl | hn
      · exact Nat.lt_succ_self _
      · exact Nat.lt_succ_of_lt (h.2 n hn)
    · next hreturns =>
      rw [if_neg hreturns]
      exact ⟨hkeeps, fun n hn => Nat.lt_succ_of_lt (h.2 n hn)⟩
  | upcall i oneShot =>
    obtain ⟨-, hstack, hcalls, hchannels⟩ := step_upcall hstep
    rw [Sound, hstack, hcalls]
    rcases hchannels with hchannels | hchannels
    · exact ⟨hchannels ▸ h.1, h.2⟩
    · exact ⟨hchannels ▸ h.1.finish, h.2⟩
  | test =>
    obtain ⟨n, hstack, hfired, hchannels, hcalls⟩ := step_test hstep
    have hsound : w.channels.Sound fun x => x = n ∨ x ∈ w'.stack := by
      simpa only [hstack, List.mem_cons] using h.1
    rw [Sound, hchannels, hcalls]
    refine ⟨hsound.retire (hord n (by simp [hstack]) hfired), ?_⟩
    intro m hm
    exact h.2 m (hstack ▸ List.mem_cons_of_mem _ hm)

lemma sound_run {statics : Statics} {tr : List Unit}
    (h : Run (Guarded Step Orderly) (initial statics) tr w) : w.Sound :=
  h.trace_invariant (fun _ => Sound) (fun _ _ _ _ _ => Sound.step) (sound_initial statics)

/-- In an orderly run every upcall writes to a record of a call that waits. -/
theorem not_returned_of_run {statics : Statics} {tr : List Unit}
    (h : Run (Guarded Step Orderly) (initial statics) tr w) {i : Slot} {oneShot : Bool}
    (hw : Step w (.upcall i oneShot) w' es) {n : ℕ} (hn : w.channels.owner i = some n) :
    ¬ w.Returned n := by
  obtain ⟨hactive, -⟩ := step_upcall hw.1
  rintro ⟨-, hreturned⟩
  exact hreturned ((sound_run h).1 i n hn hactive)

/-! ### Two runs -/

def sampleStatics : Statics := ⟨Adc.initial, Udp.initial, fun _ => 0⟩

def sampleKernel : Kernel := .steady .accepted .success

/-- One call. -/
def afterCall (c : Call) : World :=
  ((initial sampleStatics).step (.call c sampleKernel)).getD (initial sampleStatics)

lemma step_afterCall (c : Call) :
    Step (initial sampleStatics) (.call c sampleKernel) (afterCall c) [] := ⟨rfl, rfl⟩

theorem not_returned_of_run_adcSampleSync : ¬ (afterCall (.adcSampleSync 0)).Returned 0 := by
  have hsafe : Orderly (initial sampleStatics) (.call (.adcSampleSync 0) sampleKernel) :=
    fun _ => .inl rfl
  have hupcall : ((afterCall (.adcSampleSync 0)).step (.upcall .adc true)).isSome := rfl
  obtain ⟨w, hw⟩ := Option.isSome_iff_exists.mp hupcall
  exact not_returned_of_run (i := .adc) (.single ⟨hsafe, step_afterCall (.adcSampleSync 0)⟩)
    ⟨hw, rfl⟩ rfl

/-- `udp_send_to` returns when `COMMAND_SEND` succeeds; the upcall comes later. -/
theorem returned_of_run : ∃ w, Step (afterCall (.udpSendTo 0 8 ⟨0, 0⟩)) (.upcall .udpTx true) w [] ∧
    Run Step (initial sampleStatics) [] (afterCall (.udpSendTo 0 8 ⟨0, 0⟩)) ∧
    (afterCall (.udpSendTo 0 8 ⟨0, 0⟩)).channels.owner .udpTx = some 0 ∧
    (afterCall (.udpSendTo 0 8 ⟨0, 0⟩)).Returned 0 := by
  have hupcall : ((afterCall (.udpSendTo 0 8 ⟨0, 0⟩)).step (.upcall .udpTx true)).isSome := rfl
  obtain ⟨w, hw⟩ := Option.isSome_iff_exists.mp hupcall
  exact ⟨w, ⟨hw, rfl⟩, .single (step_afterCall _), rfl, by decide, List.not_mem_nil⟩

end World

end Upcalls
