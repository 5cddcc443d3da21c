import Libtock.Screen.State
import Libtock.Udp.State

/-!
# Waiting only for what the kernel promised

A function that subscribes, issues a command and checks both waits as promised. Two functions do
not check the command: `text_screen_blink_off` drops what it returns, and `udp_send_to` waits for
every response but one.
-/

namespace Screen

open Tock

inductive TextScreenOp
  | displayOn
  | displayOff
  | blinkOn
  | blinkOff
  | showCursor
  | hideCursor
  | clear
  | home
  | setCursor (col row : BitVec 8)
  | write (len : U32)
  | getSize

def TextScreenOp.program : TextScreenOp → Calls Unit Outcome
  | displayOn => textScreenDisplayOn ()
  | displayOff => textScreenDisplayOff ()
  | blinkOn => textScreenBlinkOn ()
  | blinkOff => textScreenBlinkOff ()
  | showCursor => textScreenShowCursor ()
  | hideCursor => textScreenHideCursor ()
  | clear => textScreenClear ()
  | home => textScreenHome ()
  | setCursor col row => textScreenSetCursor col row ()
  | write len => textScreenWrite len ()
  | getSize => textScreenGetSize ()

inductive ScreenOp
  | getSupportedResolutions
  | getSupportedResolution (index : U32)
  | getSupportedPixelFormats
  | getSupportedPixelFormat (index : U32)
  | setBrightness (brightness : U32)
  | invertOn
  | invertOff
  | getResolution
  | setResolution (width height : U32)
  | getPixelFormat
  | setPixelFormat (format : U32)
  | getRotation
  | setRotation (rotation : U32)
  | setFrame (x y width height : BitVec 16)
  | fill (color : U32)
  | write (length : U32)

/-- There is no program where `screen_fill` writes outside the buffer. -/
def ScreenOp.program (s : State) : ScreenOp → Option (Calls Unit Outcome)
  | getSupportedResolutions => some (screenGetSupportedResolutions ())
  | getSupportedResolution index => some (screenGetSupportedResolution index ())
  | getSupportedPixelFormats => some (screenGetSupportedPixelFormats ())
  | getSupportedPixelFormat index => some (screenGetSupportedPixelFormat index ())
  | setBrightness brightness => some (screenSetBrightness brightness ())
  | invertOn => some (screenInvertOn ())
  | invertOff => some (screenInvertOff ())
  | getResolution => some (screenGetResolution ())
  | setResolution width height => some (screenSetResolution width height ())
  | getPixelFormat => some (screenGetPixelFormat ())
  | setPixelFormat format => some (screenSetPixelFormat format ())
  | getRotation => some (screenGetRotation ())
  | setRotation rotation => some (screenSetRotation rotation ())
  | setFrame x y width height => some (screenSetFrame x y width height ())
  | fill color => (screenFill color () s).map Prod.fst
  | write length => some (screenWrite length ())

/-- A blocking call. -/
inductive Op
  | udpSendTo (buf : BitVec 32) (len : U32) (dstAddr : Udp.SockAddr) (s : Udp.State)
  | textScreen (op : TextScreenOp)
  | screen (op : ScreenOp) (s : State)

/-- The call waits as promised. -/
def Op.AsPromised (k : Kernel) : Op → Prop
  | udpSendTo buf len dstAddr s =>
    let r := (Udp.udpSendTo buf len dstAddr () s).run k
    WaitsAsPromised (r.1.1, r.2)
  | textScreen op => WaitsAsPromised (op.program.run k)
  | screen op s => ∀ program ∈ op.program s, WaitsAsPromised (program.run k)

/-- The call looks at what its command returned, or need not: the command is accepted, or a call
before it fails. -/
def Op.Checked (k : Kernel) : Op → Prop
  | udpSendTo _ _ _ _ =>
    k.allowReadonly Udp.udpDriver Udp.allowRoTx ≠ .accepted ∨
      k.subscribe Udp.udpDriver Udp.subscribeTx ≠ .accepted ∨
      (k.command Udp.udpDriver Udp.commandSend 0 0).isAccepted = true
  | textScreen .blinkOff =>
    k.subscribe driverNumTextScreen 0 ≠ .accepted ∨
      (k.command driverNumTextScreen 5 0 0).isAccepted = true
  | _ => True

variable {σ ρ : Type} {k : Kernel}

/-- A function that waits although its command was not accepted. -/
lemma not_waitsAsPromised {o : Outcome} {l : List (Issued σ ρ)} (ho : o.isWaiting = true)
    (hl : ∀ i ∈ l, i.isAcceptedCommand = false) : ¬ WaitsAsPromised (o, l) := by
  intro h
  obtain ⟨i, hi, hacc⟩ := h.accepted ho
  rw [hl i hi] at hacc
  cases hacc

/-- After calls that succeed, a function that waits in any case is right to if its command is
accepted. -/
lemma waitsAsPromised_unchecked_iff {o : Outcome} {l : List (Issued σ ρ)} {r : Response}
    {driver num arg1 arg2 : U32} (ho : o.isWaiting = true) (hl : ∀ i ∈ l, i.isFailure = false)
    (hcommand : ∀ i ∈ l, i.isAcceptedCommand = false) :
    WaitsAsPromised (o, l ++ [.command driver num arg1 arg2 r]) ↔ r.isAccepted = true := by
  cases hr : r.isAccepted with
  | true =>
    refine iff_of_true (waitsAsPromised_of_accepted ?_ fun _ => ?_) rfl
    · intro i hi
      rcases List.mem_append.mp hi with hi | hi
      · exact hl i hi
      · rw [List.mem_singleton.mp hi]
        simp [Issued.isFailure, hr]
    · exact ⟨_, List.mem_append_right _ List.mem_cons_self, hr⟩
  | false =>
    refine iff_of_false (not_waitsAsPromised ho ?_) Bool.false_ne_true
    intro i hi
    rcases List.mem_append.mp hi with hi | hi
    · exact hcommand i hi
    · rw [List.mem_singleton.mp hi]
      exact hr

lemma textScreenBlinkOff_asPromised_iff :
    WaitsAsPromised ((textScreenBlinkOff ()).run k) ↔ (Op.textScreen .blinkOff).Checked k := by
  rw [Op.Checked]
  by_cases hs : k.subscribe driverNumTextScreen 0 = .accepted
  · have hrun : (textScreenBlinkOff ()).run k = (.waits (finish noOutputs),
        [.subscribe driverNumTextScreen 0 (some ()) .accepted] ++
          [.command driverNumTextScreen 5 0 0 (k.command driverNumTextScreen 5 0 0)]) := by
      simp only [textScreenBlinkOff, Sys.bind_run, Sys.subscribe_run, hs]
      rfl
    rw [hrun, waitsAsPromised_unchecked_iff rfl (by simp [Issued.isFailure])
      (by simp [Issued.isAcceptedCommand]), or_iff_right (not_not.mpr hs)]
  · have hrun : (textScreenBlinkOff ()).run k =
        (.returned (k.subscribe driverNumTextScreen 0).toReturncode,
          [] ++ [.subscribe driverNumTextScreen 0 (some ())
            (k.subscribe driverNumTextScreen 0)]) := by
      simp only [textScreenBlinkOff, Sys.bind_run, Sys.subscribe_run,
        Answer.toReturncode_neg_iff, ne_eq, hs, not_false_eq_true, if_true]
      rfl
    rw [hrun]
    exact iff_of_true (waitsAsPromised_of_failure
      (i := .subscribe driverNumTextScreen 0 (some ()) (k.subscribe driverNumTextScreen 0))
      (by simpa [Issued.isFailure] using hs) (by simp)) (.inl hs)

lemma udpSendTo_asPromised_iff (buf : BitVec 32) (len : U32) (dstAddr : Udp.SockAddr)
    (s : Udp.State) :
    (Op.udpSendTo buf len dstAddr s).AsPromised k ↔
      (Op.udpSendTo buf len dstAddr s).Checked k := by
  rw [Op.AsPromised, Op.Checked]
  let allow : Answer → Issued (Subscription Udp.Upcall (Option Unit)) Udp.Buffer :=
    .allowReadonly Udp.udpDriver Udp.allowRoTx (.app buf len)
  let subscribe : Answer → Issued (Subscription Udp.Upcall (Option Unit)) Udp.Buffer :=
    .subscribe Udp.udpDriver Udp.subscribeTx (some ⟨.txDoneCallback, some ()⟩)
  cases ha : k.allowReadonly Udp.udpDriver Udp.allowRoTx with
  | refused e =>
    rw [Udp.udpSendTo_run_allow_refused buf len dstAddr () s ha]
    refine iff_of_true ?_ (.inl (by simp))
    exact waitsAsPromised_of_failure (l := []) (i := allow (.refused e)) rfl (by simp)
  | accepted =>
    cases hs : k.subscribe Udp.udpDriver Udp.subscribeTx with
    | refused e =>
      rw [Udp.udpSendTo_run_subscribe_refused buf len dstAddr () s ha hs]
      refine iff_of_true ?_ (.inr (.inl (by simp)))
      exact waitsAsPromised_of_failure (l := [allow .accepted]) (i := subscribe (.refused e)) rfl
        (by simp [allow, Issued.isFailure])
    | accepted =>
      rw [Udp.udpSendTo_run_accepted buf len dstAddr () s ha hs, or_iff_right (not_not.mpr rfl),
        or_iff_right (not_not.mpr rfl)]
      by_cases hret : k.command Udp.udpDriver Udp.commandSend 0 0 = .success
      · simp only [hret, if_true]
        refine iff_of_true ?_ rfl
        exact waitsAsPromised_of_accepted (by simp [Issued.isFailure, Response.isAccepted])
          (by simp [Outcome.isWaiting])
      · simp only [hret, if_false]
        exact waitsAsPromised_unchecked_iff (l := [allow .accepted, subscribe .accepted]) rfl
          (by simp [allow, subscribe, Issued.isFailure])
          (by simp [allow, subscribe, Issued.isAcceptedCommand])

lemma TextScreenOp.asPromised (op : TextScreenOp) (hop : op ≠ .blinkOff) :
    WaitsAsPromised (op.program.run k) := by
  cases op with
  | blinkOff => exact absurd rfl hop
  | _ => exact waitsAsPromised_blocking _ _ _ _ _ _ _ _

lemma ScreenOp.asPromised (op : ScreenOp) (s : State) :
    ∀ program ∈ op.program s, WaitsAsPromised (program.run k) := by
  intro program hp
  cases op with
  | fill color =>
    obtain ⟨⟨p, s'⟩, hfill, rfl⟩ := Option.map_eq_some_iff.mp hp
    obtain ⟨⟨ret, s''⟩, hcolor, heq⟩ := Option.map_eq_some_iff.mp hfill
    cases heq
    split
    · exact waitsAsPromised_of_accepted nofun nofun
    · exact waitsAsPromised_blocking _ _ _ _ _ _ _ _
  | _ =>
    cases hp
    exact waitsAsPromised_blocking _ _ _ _ _ _ _ _

/-- Every blocking call waits as promised for all answers of the kernel, but for two: these do
exactly where they could do without looking at their command. -/
theorem asPromised_iff (op : Op) (k : Kernel) : op.AsPromised k ↔ op.Checked k := by
  cases op with
  | udpSendTo buf len dstAddr s => exact udpSendTo_asPromised_iff buf len dstAddr s
  | screen op s => exact iff_of_true (op.asPromised s) trivial
  | textScreen op =>
    by_cases hop : op = .blinkOff
    · rw [hop]
      exact textScreenBlinkOff_asPromised_iff
    · refine iff_of_true (op.asPromised hop) ?_
      cases op with
      | blinkOff => exact absurd rfl hop
      | _ => trivial

/-- A command that fails: both functions wait for ever. -/
theorem not_asPromised :
    ¬ (Op.udpSendTo 0x300 8 ⟨2, 2000⟩ ⟨⟨1, 1000⟩, ⟨0, 0⟩⟩).AsPromised
        (.steady .accepted (.failure ⟨.busy, by decide⟩)) ∧
      ¬ (Op.textScreen .blinkOff).AsPromised
        (.steady .accepted (.failure ⟨.nosupport, by decide⟩)) := by
  constructor
  all_goals
    intro h
    obtain ⟨i, hi, hacc⟩ := h.accepted rfl
    revert i
    decide

end Screen
