import HispecTib.App.Threads
import HispecTib.Proofs.Intake

/-!
# One reply for each accepted command

The executor is a sequential server between two queues that other threads use as well. `Exchange`
is the invariant: the accepted commands are those already dispatched and those that wait; the
executor's replies, wherever they are, are the values of dispatching the former in order; and the
world is what they left. Every step keeps it (`Exchange.step`): a dispatch moves one command from
the second group to the first, a received publish adds one to the second, and the other steps only
move messages. From it, `one_reply_for_each_command` in every reachable state.
-/

open CLib

namespace Tib

/-! ## Replies and waiting commands -/

/-- The message, if it is from the executor. -/
def fromExecutor (m : Sender × OutMsg) : Option OutMsg :=
  if m.1 = .executor then some m.2 else none

@[simp] theorem fromExecutor_executor (om : OutMsg) : fromExecutor (.executor, om) = some om := rfl

@[simp] theorem fromExecutor_other {sender : Sender} (h : sender ≠ .executor) (om : OutMsg) :
    fromExecutor (sender, om) = none := if_neg h

def Executor.held : Executor → List Command
  | .holding cmd => [cmd]
  | _ => []

def Executor.pending : Executor → List OutMsg
  | .replying om => [om]
  | _ => []

namespace Firmware

variable (s : Firmware)

/-- The executor's replies: those taken by the main loop, those in `outbound_queue`, and the one
that waits for room there. -/
def replies : List OutMsg :=
  s.taken.filterMap fromExecutor ++ s.outbound.items.filterMap fromExecutor ++ s.executor.pending

/-- The command that the executor holds, and those in `inbound_queue`. -/
def waiting : List Command := s.executor.held ++ s.inbound.items

/-- The replies that the waiting commands will have. -/
def owed (env : Env) : List OutMsg := (Prog.mapList (dispatch env) s.waiting s.world).val

end Firmware

/-- Puts by other threads, successful or not, are not replies. -/
theorem offer_replies (q : MsgQueue (Sender × OutMsg) 8) {sender : Sender}
    (h : sender ≠ .executor) (om : OutMsg) :
    (q.offer (sender, om)).items.filterMap fromExecutor = q.items.filterMap fromExecutor :=
  MsgQueue.offer_filterMap (fromExecutor_other h om) q

/-- The handler enqueues its command, or leaves `inbound_queue` as it is. -/
theorem submit_inbound (env : Env) (pub : Publish) (inbound : InboundQueue) :
    (∃ cmd, (mqttCommandSubmit env pub inbound).1 = .enqueued cmd ∧
      inbound.put? cmd = some (mqttCommandSubmit env pub inbound).2.1) ∨
    (∀ cmd, (mqttCommandSubmit env pub inbound).1 ≠ .enqueued cmd) ∧
      (mqttCommandSubmit env pub inbound).2.1 = inbound := by
  unfold mqttCommandSubmit
  split
  · exact Or.inr ⟨nofun, rfl⟩
  · rename_i cmd _
    cases hput : inbound.put? cmd with
    | some q => exact Or.inl ⟨cmd, rfl, hput⟩
    | none => exact Or.inr ⟨nofun, rfl⟩

/-- Without steps of other threads in between, the steps of the main thread for a publish are
`mqtt_command_handler`. -/
theorem handler_uninterrupted {env : Env} {pub : Publish} {s t u : Firmware}
    (ht : Step env s (.receive pub) t)
    (hu : t.rejection = none ∧ u = t ∨ Step env t .reject u) :
    (mqttCommandHandler env pub s.inbound (s.outbound.map Prod.snd)).2 =
      (u.inbound, u.outbound.map Prod.snd) := by
  cases ht with
  | receive _ _ =>
    change (_, ((mqttCommandSubmit env pub s.inbound).2.2.map _).getD _) = _
    rcases hu with ⟨hnone, rfl⟩ | hu
    · have hr : (mqttCommandSubmit env pub s.inbound).2.2 = none := hnone
      rw [hr]
      rfl
    · cases hu with
      | reject hsome =>
        rename_i om
        have hr : (mqttCommandSubmit env pub s.inbound).2.2 = some om := hsome
        rw [hr]
        exact congrArg (Prod.mk _) (MsgQueue.map_offer Prod.snd s.outbound (.commandHandler, om))

/-! ## The invariant -/

section Invariant

variable {env : Env} {w : World}

/-- `done` are the accepted commands that have been dispatched. -/
structure Exchange (env : Env) (w : World) (done : List Command) (s : Firmware) : Prop where
  accepted_eq : s.accepted = done ++ s.waiting
  replies_eq : s.replies = (Prog.mapList (dispatch env) done w).val
  world_eq : s.world = (Prog.mapList (dispatch env) done w).post

namespace Exchange

variable {done : List Command} {s t : Firmware}

theorem boot : Exchange env w [] (.boot w) := ⟨rfl, rfl, rfl⟩

/-- A step that only moves messages. -/
theorem moved (h : Exchange env w done s) (ha : t.accepted = s.accepted)
    (hw : t.waiting = s.waiting) (hr : t.replies = s.replies) (hs : t.world = s.world) :
    Exchange env w done t :=
  ⟨by rw [ha, hw, h.accepted_eq], by rw [hr, h.replies_eq], by rw [hs, h.world_eq]⟩

/-- A publish adds its command to the waiting ones, or none. -/
theorem receive (h : Exchange env w done s) (pub : Publish) :
    Exchange env w done (s.receive env pub) := by
  rcases submit_inbound env pub s.inbound with ⟨cmd, hexit, hput⟩ | ⟨hexit, hq⟩
  · refine ⟨?_, h.replies_eq, h.world_eq⟩
    simp only [Firmware.receive, Firmware.waiting, hexit, MsgQueue.put?_items hput, h.accepted_eq,
      List.append_assoc]
  · refine h.moved ?_ ?_ rfl rfl
    · simp only [Firmware.receive]
    · simp only [Firmware.receive, Firmware.waiting, hq]

/-- A dispatch answers the oldest waiting command, in the world that the earlier ones left. -/
theorem dispatch {cmd : Command} (h : Exchange env w done s) (he : s.executor = .holding cmd) :
    Exchange env w (done ++ [cmd]) { s with
      executor := .replying (Tib.dispatch env cmd s.world).val
      world := (Tib.dispatch env cmd s.world).post } := by
  have hnone : s.executor.pending = [] := by rw [he]; rfl
  refine ⟨?_, ?_, ?_⟩
  · have ha := h.accepted_eq
    rw [Firmware.waiting, he] at ha
    simpa [Firmware.waiting, Executor.held] using ha
  · have hr := h.replies_eq
    rw [Firmware.replies, hnone, List.append_nil] at hr
    rw [Prog.mapList_append_val, ← hr, ← h.world_eq]
    rfl
  · rw [Prog.mapList_append_post, ← h.world_eq]
    rfl

/-- **Steps.** -/
theorem step (h : Exchange env w done s) {l : Label} (hst : Step env s l t) :
    ∃ done', Exchange env w done' t := by
  cases hst with
  | receive pub _ => exact ⟨done, h.receive pub⟩
  | reject _ =>
    refine ⟨done, h.moved rfl rfl ?_ rfl⟩
    simp only [Firmware.replies]
    rw [offer_replies _ (by decide)]
  | take _ hq =>
    refine ⟨done, h.moved rfl rfl ?_ rfl⟩
    have hitems := MsgQueue.get?_items hq
    rw [← List.singleton_append] at hitems
    simp only [Firmware.replies, hitems, List.filterMap_append, List.append_assoc]
  | fetch he hq =>
    refine ⟨done, h.moved rfl ?_ ?_ rfl⟩
    · simp [Firmware.waiting, Executor.held, he, MsgQueue.get?_items hq]
    · simp [Firmware.replies, Executor.pending, he]
  | dispatch he => exact ⟨_, h.dispatch he⟩
  | deliver he hq =>
    refine ⟨done, h.moved rfl ?_ ?_ rfl⟩
    · simp [Firmware.waiting, Executor.held, he]
    · simp [Firmware.replies, Executor.pending, he, MsgQueue.put?_items hq]
  | measure => exact ⟨done, h.moved rfl rfl rfl rfl⟩
  | store => exact ⟨done, h.moved rfl rfl rfl rfl⟩
  | full => exact ⟨done, h.moved rfl rfl rfl rfl⟩
  | purge => exact ⟨done, h.moved rfl rfl rfl rfl⟩
  | collect => exact ⟨done, h.moved rfl rfl rfl rfl⟩
  | forward _ =>
    refine ⟨done, h.moved rfl rfl ?_ rfl⟩
    simp only [Firmware.replies]
    rw [offer_replies _ (by decide)]

end Exchange

/-- **Runs.** -/
theorem exchange_of_reachable {s : Firmware} (h : (firmware env w).Reachable s) :
    ∃ done, Exchange env w done s := by
  refine h.of_steps (P := fun s => ∃ done, Exchange env w done s) ?_ ?_
  · rintro s rfl
    exact ⟨[], .boot⟩
  · rintro s l t ⟨done, hs⟩ hst
    exact hs.step hst

/-- A publish that decodes, received first of all. -/
theorem boot_receive {pub : Publish} {cmd : Command}
    (hcmd : mqttCommandDecode env pub = .ok cmd) :
    (Firmware.boot w).receive env pub = { Firmware.boot w with
      inbound := ⟨[cmd], Nat.le_succ 1⟩
      accepted := [cmd] } := by
  have hput : (MsgQueue.empty : InboundQueue).put? cmd = some ⟨[cmd], Nat.le_succ 1⟩ := rfl
  have hboot : (Firmware.boot w).inbound = .empty := rfl
  simp only [Firmware.receive, mqttCommandSubmit, hcmd, hboot, hput]
  rfl

/-- No accepted command brings its payload to the handlers. -/
theorem accepted_readsEmpty {s : Firmware} (h : (firmware env w).Reachable s) :
    ∀ cmd ∈ s.accepted, ReadsEmpty env cmd := by
  refine h.of_steps (P := fun s : Firmware => ∀ cmd ∈ s.accepted, ReadsEmpty env cmd) ?_ ?_
  · rintro s rfl cmd hcmd
    cases hcmd
  · rintro s l t hs hst
    cases hst with
    | receive pub _ =>
      rcases submit_inbound env pub s.inbound with ⟨cmd, hexit, -⟩ | ⟨hexit, -⟩
      · simp only [Firmware.receive, hexit, List.mem_append, List.mem_singleton]
        rintro cmd' (hcmd | rfl)
        · exact hs cmd' hcmd
        · exact enqueued_readsEmpty hexit
      · cases hsub : (mqttCommandSubmit env pub s.inbound).1 with
        | enqueued cmd => exact absurd hsub (hexit cmd)
        | rejected | busy =>
          simp only [Firmware.receive, hsub]
          exact hs
    | _ => exact hs

/-- **One reply for each accepted command, in order.** -/
theorem one_reply_for_each_command {s : Firmware} (h : (firmware env w).Reachable s) :
    s.replies ++ s.owed env = (Prog.mapList (dispatch env) s.accepted w).val ∧
      ∀ i, (s.replies ++ s.owed env)[i]? = s.accepted[i]?.map fun cmd =>
        (dispatch env cmd (Prog.mapList (dispatch env) (s.accepted.take i) w).post).val := by
  obtain ⟨done, hx⟩ := exchange_of_reachable h
  have hall : s.replies ++ s.owed env = (Prog.mapList (dispatch env) s.accepted w).val := by
    rw [hx.accepted_eq, Prog.mapList_append_val, ← hx.replies_eq, ← hx.world_eq, Firmware.owed]
  refine ⟨hall, fun i => ?_⟩
  rw [hall, Prog.mapList_getElem?]

/-- A run with a second publish before the first reply is taken. -/
theorem one_reply_taken_one_owed :
    ∃ s : Firmware, (firmware setEnv .boot).Reachable s ∧ s.taken.length = 1 ∧
      s.waiting.length = 1 ∧
      s.replies ++ s.owed setEnv = (Prog.mapList (dispatch setEnv) s.accepted .boot).val := by
  obtain ⟨cmd, hdecode, -⟩ := setPublish_decodes [7]
  have hcmd : mqttCommandDecode setEnv setPublish = .ok cmd := hdecode
  have hrecv (s : Firmware) (hs : s.inbound = .empty) : s.receive setEnv setPublish = { s with
      inbound := ⟨[cmd], Nat.le_succ 1⟩
      rejection := none
      accepted := s.accepted ++ [cmd] } := by
    have hput : (MsgQueue.empty : InboundQueue).put? cmd = some ⟨[cmd], Nat.le_succ 1⟩ := rfl
    simp only [Firmware.receive, mqttCommandSubmit, hcmd, hs, hput]
  have h0 : (firmware setEnv .boot).Reachable (.boot .boot) := .start rfl
  have h1 := h0.next (Step.receive setPublish rfl)
  rw [hrecv _ rfl] at h1
  have h2 := h1.next (Step.fetch rfl rfl)
  have h3 := h2.next (Step.dispatch rfl)
  have h4 := h3.next (Step.deliver rfl rfl)
  have h5 := h4.next (Step.receive setPublish rfl)
  rw [hrecv _ rfl] at h5
  have h6 := h5.next (Step.take rfl rfl)
  exact ⟨_, h6, rfl, rfl, (one_reply_for_each_command h6).1⟩

end Invariant

end Tib
