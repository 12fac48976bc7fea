import HispecTib.App.MainLoop
import HispecTib.Proofs.Messages
import HispecTib.Proofs.Rejections

/-!
# What the main loop publishes

The main loop runs the firmware of `Threads` (`mainLoop_refines`), and it publishes what it takes:
the calls of `mqtt_publish`, in order, are for the messages taken, with the packet identifiers 1, 2,
… modulo 65536 (`Sequenced`).

* **Packet identifiers** (`idsValid_iff`): an identifier is 0 when 65535 calls came before, so a
  reply must not be there.
* **Replies** (`repliesKept_iff`): a message whose `mqtt_publish` fails is gone, so none may fail
  for a reply.
-/

open CLib

namespace Tib

section Publishing

variable {env : Env} {w : World} {b t : MainLoop} {l : MainLabel}

/-! ## The firmware inside -/

/-- The handler has put its reply when the call that read the input returns. -/
def MainLoop.Settled (b : MainLoop) : Prop := b.phase.readsInput = false → b.fw.rejection = none

/-- The step of the firmware that a step of the loop is. -/
def MainLabel.firmware : MainLabel → Option Label
  | .thread l => some l
  | .take => some .take
  | _ => none

/-- The steps of the loop are steps of the firmware, or the firmware does not see them. -/
theorem MainStep.firmware (hst : MainStep env b l t) (hb : b.Settled) :
    (firmware env w).StepOrStay b.fw l.firmware t.fw := by
  cases hst with
  | thread _ hfw => exact hfw
  | take hphase hq => exact Step.take (hb (by rw [hphase]; rfl)) hq
  | _ => rfl

/-- Only the handler makes a rejection. -/
theorem Step.rejection_eq {s u : Firmware} {l : Label} (hst : Step env s l u)
    (h : ∀ pub, l ≠ .receive pub) (hs : s.rejection = none) : u.rejection = none := by
  cases hst with
  | receive pub _ => exact absurd rfl (h pub)
  | reject _ => rfl
  | _ => exact hs

theorem MainStep.settled (hst : MainStep env b l t) (hb : b.Settled) : t.Settled := by
  intro hphase
  cases hst with
  | thread hallows hfw =>
    rename_i l fw
    have hphase' : b.phase.readsInput = false := hphase
    refine hfw.rejection_eq ?_ (hb hphase')
    rintro pub rfl
    have hreads : b.phase.readsInput = true := hallows
    rw [hphase'] at hreads
    cases hreads
  | connack _ => exact hb hphase
  | disconnected _ => exact hb hphase
  | connected _ hnone _ => exact hnone
  | process rc _ hnone => exact hnone
  | subscribed rc h => exact hb (by rw [h]; rfl)
  | enter h _ => exact hb (by rw [h]; rfl)
  | take h _ => exact hb (by rw [h]; rfl)
  | publish rc h => exact hb (by rw [h]; rfl)
  | empty h _ => exact hb (by rw [h]; rfl)
  | leave h _ => exact hb (by rw [h]; rfl)
  | disconnect rc h => exact hb (by rw [h]; rfl)

theorem settled_of_reachable (h : (mainLoop env w).Reachable b) : b.Settled := by
  refine h.of_steps (P := MainLoop.Settled) ?_ fun b l t hb hst => MainStep.settled hst hb
  rintro b rfl
  exact fun _ => rfl

/-- **The firmware inside the loop.** The loop runs the firmware, its other steps are not seen. -/
theorem mainLoop_refines (env : Env) (w : World) :
    (mainLoop env w).Refines (firmware env w) MainLoop.fw fun _ l => l.firmware := by
  refine ⟨?_, fun b l t hr hst => MainStep.firmware hst (settled_of_reachable hr)⟩
  rintro b rfl
  rfl

/-- What holds in every state of `firmware` holds here. -/
theorem firmware_reachable (h : (mainLoop env w).Reachable b) :
    (firmware env w).Reachable b.fw :=
  (mainLoop_refines env w).reachable h

/-! ## Steps, as the calls see them -/

/-- What a step does to the messages taken and to the calls. -/
inductive Effect (b : MainLoop) : MainLabel → MainLoop → Prop
  | take {t : MainLoop} (m : Sender × OutMsg) (hm : m ∈ b.fw.outbound.items)
      (hphase : b.phase = .draining) (hphase' : t.phase = .publishing (m.2.publishParam b.msgId))
      (htaken : t.fw.taken = b.fw.taken ++ [m]) (hid : t.msgId = b.msgId + 1)
      (hcalls : t.calls = b.calls) : Effect b .take t
  | publish {t : MainLoop} (param : PublishParam OutParam) (rc : Int)
      (hphase : b.phase = .publishing param) (hphase' : t.phase = .draining)
      (htaken : t.fw.taken = b.fw.taken) (hid : t.msgId = b.msgId)
      (hcalls : t.calls = b.calls ++ [⟨param, rc⟩]) : Effect b (.publish rc) t
  | other {l : MainLabel} {t : MainLoop} (hl : ∀ rc, l ≠ .publish rc)
      (hparam : t.phase.param = b.phase.param) (htaken : t.fw.taken = b.fw.taken)
      (hid : t.msgId = b.msgId) (hcalls : t.calls = b.calls) : Effect b l t

theorem Step.taken_eq {s u : Firmware} {l : Label} (hst : Step env s l u) (h : l ≠ .take) :
    u.taken = s.taken := by
  cases hst with
  | take _ _ => exact absurd rfl h
  | _ => rfl

theorem MainStep.effect (hst : MainStep env b l t) : Effect b l t := by
  cases hst with
  | thread hallows hfw =>
    refine .other nofun rfl (hfw.taken_eq ?_) rfl rfl
    rintro rfl
    exact hallows
  | take hphase hq =>
    rename_i m outbound
    refine .take m ?_ hphase rfl rfl rfl rfl
    rw [MsgQueue.get?_items hq]
    exact List.mem_cons_self
  | publish rc hphase => exact .publish _ rc hphase rfl rfl rfl rfl
  | connack _ => exact .other nofun rfl rfl rfl rfl
  | disconnected _ => exact .other nofun rfl rfl rfl rfl
  | connected h _ _ => exact .other nofun (by rw [h]; rfl) rfl rfl rfl
  | subscribed rc h => exact .other nofun (by rw [h]; rfl) rfl rfl rfl
  | enter h _ => exact .other nofun (by rw [h]; rfl) rfl rfl rfl
  | empty h _ => exact .other nofun (by rw [h]; rfl) rfl rfl rfl
  | process rc h _ =>
    refine .other nofun ?_ rfl rfl rfl
    rw [h]
    dsimp only
    split_ifs <;> rfl
  | leave h _ => exact .other nofun (by rw [h]; rfl) rfl rfl rfl
  | disconnect rc h => exact .other nofun (by rw [h]; rfl) rfl rfl rfl

/-- The main loop reads no field of a message past its end. -/
theorem taken_publishable (h : (mainLoop env w).Reachable b) :
    ∀ m ∈ b.fw.taken, Publishable m.2 := by
  refine (h.of_steps (P := fun b : MainLoop => (mainLoop env w).Reachable b ∧
    ∀ m ∈ b.fw.taken, Publishable m.2) ?_ ?_).2
  · rintro b rfl
    exact ⟨.start rfl, nofun⟩
  · rintro b l t ⟨hr, hb⟩ hst
    refine ⟨hr.next hst, fun m hm => ?_⟩
    cases hst.effect with
    | take m' hm' hphase hphase' htaken =>
      rw [htaken, List.mem_append, List.mem_singleton] at hm
      rcases hm with hm | rfl
      · exact hb m hm
      · exact (messages_made (firmware_reachable hr) m.2
          (mem_messages.mpr (Or.inl ⟨m.1, hm'⟩))).publishable
    | publish param rc hphase hphase' htaken => exact hb m (htaken ▸ hm)
    | other hl hparam htaken => exact hb m (htaken ▸ hm)

/-! ## The calls, in order -/

/-- The parameters of the calls, with the one under way. -/
def MainLoop.params (b : MainLoop) : List (PublishParam OutParam) :=
  b.calls.map PublishCall.param ++ b.phase.param.toList

theorem params_draining (h : b.phase = .draining) : b.params = b.calls.map PublishCall.param := by
  simp [MainLoop.params, h, MainPhase.param]

theorem params_publishing {param : PublishParam OutParam} (h : b.phase = .publishing param) :
    b.params = b.calls.map PublishCall.param ++ [param] := by
  simp [MainLoop.params, h, MainPhase.param]

/-- The invariant: the messages taken are published in order, and they are numbered from 1. -/
structure Sequenced (b : MainLoop) : Prop where
  params_eq : b.params = b.fw.taken.mapIdx fun i m => m.2.publishParam (UInt16.ofNat (i + 1))
  msgId_eq : b.msgId = UInt16.ofNat (b.fw.taken.length + 1)

theorem Sequenced.boot : Sequenced (.boot w) := ⟨rfl, rfl⟩

/-- **Steps.** -/
theorem Sequenced.step (h : Sequenced b) (hst : MainStep env b l t) : Sequenced t := by
  cases hst.effect with
  | take m hm hphase hphase' htaken hid hcalls =>
    have hparams := h.params_eq
    rw [params_draining hphase] at hparams
    refine ⟨?_, ?_⟩
    · rw [params_publishing hphase', hcalls, htaken, hparams, List.mapIdx_append, h.msgId_eq]
      simp
    · rw [hid, htaken, h.msgId_eq, List.length_append, List.length_singleton,
        UInt16.ofNat_add (b.fw.taken.length + 1)]
      rfl
  | publish param rc hphase hphase' htaken hid hcalls =>
    refine ⟨?_, by rw [hid, htaken, h.msgId_eq]⟩
    rw [htaken, ← h.params_eq, params_publishing hphase, params_draining hphase', hcalls,
      List.map_append]
    rfl
  | other hl hparam htaken hid hcalls =>
    refine ⟨?_, by rw [hid, htaken, h.msgId_eq]⟩
    rw [MainLoop.params, hcalls, hparam, htaken]
    exact h.params_eq

/-- **Runs.** -/
theorem sequenced_of_reachable (h : (mainLoop env w).Reachable b) : Sequenced b := by
  refine h.of_steps ?_ fun b l t hb hst => hb.step hst
  rintro b rfl
  exact .boot

/-- The call under way is for the message after those of the calls before. -/
theorem Sequenced.under_way (h : Sequenced b) {param : PublishParam OutParam}
    (hphase : b.phase = .publishing param) :
    ∃ m, b.fw.taken[b.calls.length]? = some m ∧
      param = m.2.publishParam (UInt16.ofNat (b.calls.length + 1)) := by
  have hget := congrArg (fun ps => ps[b.calls.length]?) h.params_eq
  rw [params_publishing hphase, List.getElem?_append_right (by simp), List.length_map, Nat.sub_self,
    List.getElem?_cons_zero, List.getElem?_mapIdx] at hget
  obtain ⟨m, hm, hparam⟩ := Option.map_eq_some_iff.mp hget.symm
  exact ⟨m, hm, hparam.symm⟩

/-- While no call is under way, every message taken has had its call. -/
theorem Sequenced.taken_length (h : Sequenced b) (hphase : b.phase = .draining) :
    b.fw.taken.length = b.calls.length := by
  have hlen := congrArg List.length h.params_eq
  rw [params_draining hphase, List.length_map, List.length_mapIdx] at hlen
  exact hlen.symm

/-- The step is not the return of an `mqtt_publish`, or its parameter and its result satisfy `P`. -/
def OnPublish (P : PublishParam OutParam → Int → Prop) (b : MainLoop) : MainLabel → Prop
  | .publish rc => ∀ param, b.phase = .publishing param → P param rc
  | _ => True

theorem onPublish_iff {P : PublishParam OutParam → Int → Prop} {param : PublishParam OutParam}
    {rc : Int} (hphase : b.phase = .publishing param) :
    OnPublish P b (.publish rc) ↔ P param rc := by
  simp [OnPublish, hphase]

theorem onPublish_other {P : PublishParam OutParam → Int → Prop} (hl : ∀ rc, l ≠ .publish rc) :
    OnPublish P b l := by
  unfold OnPublish
  split
  · exact absurd rfl (hl _)
  · trivial

/-! ## Packet identifiers -/

/-- No call for a message with QoS 1 or 2 has the identifier 0. -/
def MainLoop.IdsValid (b : MainLoop) : Prop :=
  ∀ call ∈ b.calls, 0 < call.param.qos → call.param.messageId ≠ 0

/-- A call for a message with QoS 1 or 2 does not come where the counter has wrapped. -/
def KeepsIds (b : MainLoop) : MainLabel → Prop :=
  OnPublish (fun param _ => 0 < param.qos → b.calls.length % 65536 ≠ 65535) b

theorem ofNat_succ_eq_zero (n : Nat) : UInt16.ofNat (n + 1) = 0 ↔ n % 65536 = 65535 := by
  rw [UInt16.ofNat_eq_iff_mod_eq_toNat, UInt16.toNat_zero]
  omega

theorem idsValid_step_iff (hseq : Sequenced b) (hb : b.IdsValid) (hst : MainStep env b l t) :
    t.IdsValid ↔ KeepsIds b l := by
  cases hst.effect with
  | take m hm hphase hphase' htaken hid hcalls =>
    rw [MainLoop.IdsValid, hcalls]
    exact iff_of_true hb trivial
  | publish param rc hphase hphase' htaken hid hcalls =>
    obtain ⟨m, -, hparam⟩ := hseq.under_way hphase
    have hzero : param.messageId = 0 ↔ b.calls.length % 65536 = 65535 := by
      rw [hparam]
      exact ofNat_succ_eq_zero _
    rw [MainLoop.IdsValid, hcalls, List.forall_mem_append, KeepsIds, onPublish_iff hphase]
    constructor
    · rintro ⟨-, hlast⟩ hqos hwrap
      exact hlast _ List.mem_cons_self hqos (hzero.mpr hwrap)
    · intro hk
      refine ⟨hb, fun call hcall hqos => ?_⟩
      obtain rfl := List.mem_singleton.mp hcall
      exact fun hid0 => hk hqos (hzero.mp hid0)
  | other hl hparam htaken hid hcalls =>
    rw [MainLoop.IdsValid, hcalls]
    exact iff_of_true hb (onPublish_other hl)

/-- **Packet identifiers.** In a run of the main loop, every state has only valid identifiers
exactly when no call for a message with QoS 1 or 2 comes after 65535 others, or after 65536 more. -/
theorem idsValid_iff {ls : List MainLabel} :
    (mainLoop env w).ExecWith (fun _ _ t => t.IdsValid) (.boot w) ls b ↔
      (mainLoop env w).ExecWith (fun b l _ => KeepsIds b l) (.boot w) ls b := by
  refine Sys.execWith_iff (S := mainLoop env w) (P := MainLoop.IdsValid) ?_ rfl nofun
  exact fun b l t hr hb hst => idsValid_step_iff (sequenced_of_reachable hr) hb hst

/-! ## Replies -/

/-- The call for message `i` has returned 0. -/
def MainLoop.Accepted (b : MainLoop) (i : Nat) (om : OutMsg) : Prop :=
  ∃ call, b.calls[i]? = some call ∧ (∃ messageId, call.param = om.publishParam messageId) ∧
    call.rc = 0

/-- The call for message `i` is under way. -/
def MainLoop.Held (b : MainLoop) (i : Nat) (om : OutMsg) : Prop :=
  i = b.calls.length ∧ ∃ messageId, b.phase.param = some (om.publishParam messageId)

/-- Every message with QoS 1 that the main loop has taken is accepted or held; it puts none back. -/
def MainLoop.RepliesKept (b : MainLoop) : Prop :=
  ∀ i m, b.fw.taken[i]? = some m → m.2.qos = 1 → b.Accepted i m.2 ∨ b.Held i m.2

/-- The call for a message with QoS 1 succeeds. -/
def KeepsReplies (b : MainLoop) : MainLabel → Prop :=
  OnPublish (fun param rc => param.qos = 1 → rc = 0) b

theorem MainLoop.Accepted.append {i : Nat} {om : OutMsg} (h : b.Accepted i om)
    {cs : List PublishCall} (hcalls : t.calls = b.calls ++ cs) : t.Accepted i om := by
  obtain ⟨call, hget, hparam, hrc⟩ := h
  refine ⟨call, ?_, hparam, hrc⟩
  rw [hcalls, List.getElem?_append_left (List.getElem?_eq_some_iff.mp hget).1]
  exact hget

/-- Taking a message holds it. -/
theorem repliesKept_take (hseq : Sequenced b) (hb : b.RepliesKept) {m : Sender × OutMsg}
    {messageId : UInt16} (hphase : b.phase = .draining)
    (hphase' : t.phase = .publishing (m.2.publishParam messageId))
    (htaken : t.fw.taken = b.fw.taken ++ [m]) (hcalls : t.calls = b.calls) : t.RepliesKept := by
  intro i m' hm' hqos
  rw [htaken] at hm'
  rcases Nat.lt_or_ge i b.fw.taken.length with hi | hi
  · rw [List.getElem?_append_left hi] at hm'
    rcases hb i m' hm' hqos with hacc | ⟨-, id, hparam⟩
    · exact Or.inl (hacc.append (hcalls.trans (List.append_nil _).symm))
    · rw [hphase] at hparam
      cases hparam
  · have hlt := (List.getElem?_eq_some_iff.mp hm').1
    rw [List.length_append, List.length_singleton] at hlt
    obtain rfl : i = b.fw.taken.length := by omega
    rw [List.getElem?_append_right le_rfl, Nat.sub_self, List.getElem?_cons_zero,
      Option.some.injEq] at hm'
    subst hm'
    right
    refine ⟨by rw [hcalls, hseq.taken_length hphase], messageId, ?_⟩
    rw [hphase']
    rfl

/-- The return of a call decides about its message. -/
theorem repliesKept_publish_iff (hseq : Sequenced b) (hb : b.RepliesKept)
    {param : PublishParam OutParam} {rc : Int} (hphase : b.phase = .publishing param)
    (hphase' : t.phase = .draining) (htaken : t.fw.taken = b.fw.taken)
    (hcalls : t.calls = b.calls ++ [⟨param, rc⟩]) :
    t.RepliesKept ↔ (param.qos = 1 → rc = 0) := by
  have hlast : t.calls[b.calls.length]? = some ⟨param, rc⟩ := by
    rw [hcalls, List.getElem?_append_right le_rfl, Nat.sub_self, List.getElem?_cons_zero]
  constructor
  · intro ht hqos
    obtain ⟨m, hm, hparam⟩ := hseq.under_way hphase
    have hmqos : m.2.qos = 1 := by rw [← hqos, hparam]; rfl
    rcases ht _ m (htaken ▸ hm) hmqos with ⟨call, hcall, -, hrc⟩ | ⟨-, id, hheld⟩
    · rw [hlast, Option.some.injEq] at hcall
      rw [← hrc, ← hcall]
    · rw [hphase'] at hheld
      cases hheld
  · intro hrc i m hm hqos
    left
    rcases hb i m (htaken ▸ hm) hqos with hacc | ⟨rfl, id, hheld⟩
    · exact hacc.append hcalls
    · rw [hphase] at hheld
      have hparam : param = m.2.publishParam id := Option.some.inj hheld
      refine ⟨_, hlast, ⟨id, hparam⟩, hrc ?_⟩
      rw [hparam]
      exact hqos

theorem repliesKept_step_iff (hseq : Sequenced b) (hb : b.RepliesKept)
    (hst : MainStep env b l t) : t.RepliesKept ↔ KeepsReplies b l := by
  cases hst.effect with
  | take m hm hphase hphase' htaken hid hcalls =>
    exact iff_of_true (repliesKept_take hseq hb hphase hphase' htaken hcalls) trivial
  | publish param rc hphase hphase' htaken hid hcalls =>
    rw [repliesKept_publish_iff hseq hb hphase hphase' htaken hcalls, KeepsReplies,
      onPublish_iff hphase]
  | other hl hparam htaken hid hcalls =>
    refine iff_of_true (fun i m hm hqos => ?_) (onPublish_other hl)
    rcases hb i m (htaken ▸ hm) hqos with hacc | hheld
    · exact Or.inl (hacc.append (hcalls.trans (List.append_nil _).symm))
    · right
      rwa [MainLoop.Held, hcalls, hparam]

/-- **Replies.** In a run of the main loop, every state has each reply taken accepted or held
exactly when no call for a message with QoS 1 fails. -/
theorem repliesKept_iff {ls : List MainLabel} :
    (mainLoop env w).ExecWith (fun _ _ t => t.RepliesKept) (.boot w) ls b ↔
      (mainLoop env w).ExecWith (fun b l _ => KeepsReplies b l) (.boot w) ls b := by
  refine Sys.execWith_iff (S := mainLoop env w) (P := MainLoop.RepliesKept) ?_ rfl nofun
  exact fun b l t hr hb hst => repliesKept_step_iff (sequenced_of_reachable hr) hb hst

end Publishing

/-! ## Runs of samples and a rejection -/

section Runs

/-- Between two messages, with empty queues. -/
def drained (taken : List (Sender × OutMsg)) (id : UInt16) (calls : List PublishCall) : MainLoop :=
  ⟨{ Firmware.boot .boot with taken }, .draining, true, id, calls⟩

theorem drained_start : (mainLoop setEnv .boot).Reachable (drained [] 1 []) := by
  have h0 : (mainLoop setEnv .boot).Reachable (.boot .boot) := .start rfl
  have h1 := h0.next (MainStep.connack rfl)
  have h2 := h1.next (MainStep.connected rfl rfl rfl)
  have h3 := h2.next (MainStep.subscribed 0 rfl)
  exact h3.next (MainStep.enter rfl rfl)

variable {taken : List (Sender × OutMsg)} {id : UInt16} {calls : List PublishCall}

/-- A step that does not wait for the main thread. -/
theorem next_thread {b : MainLoop} {l : Label} {fw : Firmware}
    (h : (mainLoop setEnv .boot).Reachable b) (hst : Step setEnv b.fw l fw)
    (hallows : b.phase.Allows l) : (mainLoop setEnv .boot).Reachable { b with fw } :=
  h.next (MainStep.thread hallows hst)

/-- A sample goes through both queues and is published. -/
theorem drained_sample (h : (mainLoop setEnv .boot).Reachable (drained taken id calls))
    (yj hk : Int16) (time : Int64) :
    (mainLoop setEnv .boot).Reachable (drained (taken ++ [(.photodiode, photodiodeMsg yj hk time)])
      (id + 1) (calls ++ [⟨(photodiodeMsg yj hk time).publishParam id, 0⟩])) := by
  have h1 := next_thread h (Step.measure yj hk time rfl) trivial
  have h2 := next_thread h1 (Step.store rfl rfl) trivial
  have h3 := next_thread h2 (Step.collect rfl rfl) trivial
  have h4 := next_thread h3 (Step.forward rfl) trivial
  have h5 := h4.next (MainStep.take rfl rfl)
  exact h5.next (MainStep.publish 0 rfl)

theorem drained_samples (n : Nat) : ∃ taken id calls,
    (mainLoop setEnv .boot).Reachable (drained taken id calls) ∧ taken.length = n := by
  induction n with
  | zero => exact ⟨[], 1, [], drained_start, rfl⟩
  | succ n ih =>
    obtain ⟨taken, id, calls, h, hn⟩ := ih
    refine ⟨_, _, _, drained_sample h 1 2 3, ?_⟩
    rw [List.length_append, hn, List.length_singleton]

/-- A publish with an empty key comes in, and its rejection is published with the result `rc`. -/
theorem drained_rejection (h : (mainLoop setEnv .boot).Reachable (drained taken id calls))
    (rc : Int) :
    (mainLoop setEnv .boot).Reachable
      (drained (taken ++ [(.commandHandler, invalidCommandResponse .zero)]) (id + 1)
        (calls ++ [⟨(invalidCommandResponse .zero).publishParam id, rc⟩])) := by
  have hd : mqttCommandDecode setEnv keylessPublish = .error (.badKey, .zero) :=
    keyless_badKey (some (str "client/1")) [7]
  have hreceive (s : Firmware) : s.receive setEnv keylessPublish =
      { s with rejection := some (invalidCommandResponse .zero) } := by
    simp only [Firmware.receive, mqttCommandSubmit, hd]
    rfl
  have h1 := h.next (MainStep.empty rfl rfl)
  have h2 := next_thread h1 (Step.receive keylessPublish rfl) rfl
  rw [hreceive] at h2
  have h3 := next_thread h2 (Step.reject rfl) rfl
  have h4 := h3.next (MainStep.process 0 rfl rfl)
  have h5 := h4.next (MainStep.enter rfl rfl)
  have h6 := h5.next (MainStep.take rfl rfl)
  exact h6.next (MainStep.publish rc rfl)

/-- After 65535 samples, a rejection is published with the identifier 0. -/
theorem rejection_at_wrap :
    ∃ b, (mainLoop setEnv .boot).Reachable b ∧ ¬ b.IdsValid := by
  obtain ⟨taken, id, calls, h, hn⟩ := drained_samples 65535
  have hid : id = 0 := by
    have hseq := (sequenced_of_reachable h).msgId_eq
    change id = UInt16.ofNat (taken.length + 1) at hseq
    rw [hseq, ofNat_succ_eq_zero, hn]
  refine ⟨_, drained_rejection h 0, fun hvalid => ?_⟩
  exact hvalid _ (List.mem_append_right _ List.mem_cons_self) Nat.zero_lt_one hid

/-- A rejection whose `mqtt_publish` fails with `-ENOTCONN` is gone. -/
theorem rejection_lost :
    ∃ b, (mainLoop setEnv .boot).Reachable b ∧ ¬ b.RepliesKept := by
  refine ⟨_, drained_rejection drained_start (-128), fun hkept => ?_⟩
  rcases hkept 0 _ rfl rfl with ⟨call, hcall, -, hrc⟩ | ⟨-, id, hheld⟩
  · obtain rfl := Option.some.inj hcall
    cases hrc
  · cases hheld

end Runs

end Tib
