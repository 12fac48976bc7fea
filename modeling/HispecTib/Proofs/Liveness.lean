import HispecTib.Base.Fair
import HispecTib.Proofs.Exchange
import HispecTib.Proofs.Publishing

/-!
# Every accepted command is answered in the end

Safety says that the replies come in order; here they come at all. A command waits in
`inbound_queue`, is held by the executor, becomes a reply that waits for room in `outbound_queue`,
and then waits there to be taken. Each of these stages ends by the fairness of one step, and the
full queue that blocks the executor is emptied by the loop that takes.

* `replies_taken`: in every fair behaviour of the firmware, the replies to what has been accepted by
  any moment are all taken later, whatever else goes through the queues.
* `replies_published`: in every fair behaviour of the main loop that keeps coming back to its
  drain, they are all published.
* `backlog_bounded`: how many of them can be on their way, and when a request is accepted.
-/

open CLib

namespace Tib

/-! ## What one step does to the queues -/

section Steps

variable {env : Env} {w : World} {s t : Firmware} {l : Label}

/-- Everything that was put on `outbound_queue`, in order. -/
def Firmware.sent (s : Firmware) : List (Sender × OutMsg) := s.taken ++ s.outbound.items

/-- The number of replies that the executor has put there. -/
def Firmware.answered (s : Firmware) : Nat := (s.sent.filterMap fromExecutor).length

/-- The number of replies that a step puts there. -/
def Label.replies : Label → Nat
  | .deliver => 1
  | _ => 0

theorem Label.replies_eq {l : Label} (h : l ≠ .deliver) : l.replies = 0 := by
  cases l with
  | deliver => exact absurd rfl h
  | _ => rfl

/-- A step takes the first message of `outbound_queue`, or it adds messages at its end. -/
inductive OutboundMove (s : Firmware) : Label → Firmware → Prop
  | take {t : Firmware} (m : Sender × OutMsg) (htaken : t.taken = s.taken ++ [m])
      (hitems : s.outbound.items = m :: t.outbound.items) : OutboundMove s .take t
  | add {l : Label} {t : Firmware} (ms : List (Sender × OutMsg)) (hl : l ≠ .take)
      (htaken : t.taken = s.taken) (hitems : t.outbound.items = s.outbound.items ++ ms)
      (hms : (ms.filterMap fromExecutor).length = l.replies) : OutboundMove s l t

/-- A put of another thread adds no reply. -/
theorem offer_adds (q : MsgQueue (Sender × OutMsg) 8) (sender : Sender) (h : sender ≠ .executor)
    (om : OutMsg) : ∃ ms, (q.offer (sender, om)).items = q.items ++ ms ∧
      (ms.filterMap fromExecutor).length = 0 := by
  rcases q.offer_items (sender, om) with hq | hq
  · exact ⟨_, hq, by simp [fromExecutor_other h]⟩
  · exact ⟨[], by simpa using hq, rfl⟩

theorem Step.outboundMove (hst : Step env s l t) : OutboundMove s l t := by
  cases hst with
  | take _ hq => exact .take _ rfl (MsgQueue.get?_items hq)
  | reject _ =>
    obtain ⟨ms, hitems, hms⟩ := offer_adds s.outbound .commandHandler nofun _
    exact .add ms nofun rfl hitems hms
  | forward _ =>
    obtain ⟨ms, hitems, hms⟩ := offer_adds s.outbound .photodiode nofun _
    exact .add ms nofun rfl hitems hms
  | deliver _ hq => exact .add _ nofun rfl (MsgQueue.put?_items hq) rfl
  | _ => exact .add [] nofun rfl (List.append_nil _).symm rfl

/-- What was sent stays sent, and only the executor's put adds a reply. -/
theorem Step.sent (hst : Step env s l t) :
    s.sent <+: t.sent ∧ t.answered = s.answered + l.replies := by
  cases hst.outboundMove with
  | take m htaken hitems =>
    have hsent : t.sent = s.sent := by simp [Firmware.sent, htaken, hitems]
    exact ⟨hsent ▸ List.prefix_refl _, by rw [Firmware.answered, hsent]; rfl⟩
  | add ms hl htaken hitems hms =>
    have hsent : t.sent = s.sent ++ ms := by simp [Firmware.sent, htaken, hitems]
    refine ⟨⟨ms, hsent.symm⟩, ?_⟩
    rw [Firmware.answered, hsent, List.filterMap_append, List.length_append, hms]
    rfl

/-- A step is one of the executor's three, or the executor stays where it is. -/
inductive ExecutorMove (s : Firmware) : Label → Firmware → Prop
  | fetch {t : Firmware} (cmd : Command) (hs : s.executor = .waiting)
      (ht : t.executor = .holding cmd) : ExecutorMove s .fetch t
  | dispatch {t : Firmware} (cmd : Command) (om : OutMsg) (hs : s.executor = .holding cmd)
      (ht : t.executor = .replying om) : ExecutorMove s .dispatch t
  | deliver {t : Firmware} (om : OutMsg) (hs : s.executor = .replying om) :
      ExecutorMove s .deliver t
  | other {l : Label} {t : Firmware} (hl : l ≠ .fetch ∧ l ≠ .dispatch ∧ l ≠ .deliver)
      (ht : t.executor = s.executor) : ExecutorMove s l t

theorem Step.executorMove (hst : Step env s l t) : ExecutorMove s l t := by
  cases hst with
  | fetch he _ => exact .fetch _ he rfl
  | dispatch he => exact .dispatch _ _ he rfl
  | deliver he _ => exact .deliver _ he
  | _ => exact .other ⟨nofun, nofun, nofun⟩ rfl

/-- Accepted commands go to the end of `inbound_queue`; only the executor takes from it. -/
theorem Step.intake (hst : Step env s l t) :
    ∃ cmds, t.accepted = s.accepted ++ cmds ∧
      (l ≠ .fetch → t.inbound.items = s.inbound.items ++ cmds) := by
  cases hst with
  | receive pub _ =>
    rcases submit_inbound env pub s.inbound with ⟨cmd, hexit, hput⟩ | ⟨hexit, hq⟩
    · refine ⟨[cmd], ?_, fun _ => MsgQueue.put?_items hput⟩
      simp only [Firmware.receive, hexit]
    · refine ⟨[], ?_, fun _ => ?_⟩
      · simp only [Firmware.receive, List.append_nil]
      · simp only [Firmware.receive, hq, List.append_nil]
  | fetch _ _ => exact ⟨[], (List.append_nil _).symm, fun h => absurd rfl h⟩
  | _ => exact ⟨[], (List.append_nil _).symm, fun _ => (List.append_nil _).symm⟩

/-- An accepted command is answered, or its reply is pending, or it waits. -/
theorem accepted_length (h : (firmware env w).Reachable s) : s.accepted.length =
    s.answered + s.executor.pending.length + s.waiting.length := by
  obtain ⟨done, hx⟩ := exchange_of_reachable h
  have hlen := congrArg List.length hx.replies_eq
  rw [Prog.mapList_length] at hlen
  rw [hx.accepted_eq, List.length_append, ← hlen]
  simp [Firmware.replies, Firmware.answered, Firmware.sent, Nat.add_assoc]

end Steps

/-! ## The stages of a command -/

section Stages

variable {env : Env} {w : World} {σ : Nat → Firmware} {ℓ : Nat → Option Label}

/-- The executor and the loop that takes keep running. Another message may get the room that the
executor waits for, but not every time. -/
structure FairThreads (env : Env) (w : World) (σ : Nat → Firmware) (ℓ : Nat → Option Label) :
    Prop where
  fetch : (firmware env w).WeaklyFair (fun l => l = Label.fetch) σ ℓ
  dispatch : (firmware env w).WeaklyFair (fun l => l = Label.dispatch) σ ℓ
  deliver : (firmware env w).StronglyFair (fun l => l = Label.deliver) σ ℓ
  reject : (firmware env w).WeaklyFair (fun l => l = Label.reject) σ ℓ
  take : (firmware env w).StronglyFair (fun l => l = Label.take) σ ℓ

theorem take_enabled {s : Firmware} (hr : s.rejection = none) (ho : s.outbound.items ≠ []) :
    (firmware env w).Enabled (fun l => l = Label.take) s := by
  obtain ⟨m, outbound, hq⟩ := MsgQueue.get?_of_ne_nil ho
  exact ⟨_, _, rfl, Step.take hr hq⟩

theorem deliver_enabled {s : Firmware} {om : OutMsg} (he : s.executor = .replying om)
    (hroom : s.outbound.items.length < 8) :
    (firmware env w).Enabled (fun l => l = Label.deliver) s :=
  ⟨_, _, rfl, Step.deliver he (MsgQueue.put?_of_lt hroom _)⟩

/-- While nothing is taken, a message stays in the queue. -/
theorem outbound_stays {s t : Firmware} {l : Label} {k : Nat} (hst : Step env s l t)
    (hs : s.taken.length = k ∧ s.outbound.items ≠ []) :
    (t.taken.length = k ∧ t.outbound.items ≠ []) ∧ l ≠ .take ∨ k < t.taken.length := by
  cases hst.outboundMove with
  | take m htaken hitems =>
    refine Or.inr ?_
    rw [htaken, List.length_append, hs.1]
    exact Nat.lt_succ_self k
  | add ms hl htaken hitems hms =>
    refine Or.inl ⟨⟨by rw [htaken, hs.1], ?_⟩, hl⟩
    rw [hitems]
    exact List.append_ne_nil_of_left_ne_nil hs.2 _

/-- When no rejection is on its way, a message can be taken. -/
theorem take_enabled_again (h : (firmware env w).Behaviour σ ℓ) (hfair : FairThreads env w σ ℓ)
    (k : Nat) : Sys.LeadsTo σ (fun s => s.taken.length = k ∧ s.outbound.items ≠ [])
      fun s => (firmware env w).Enabled (fun l => l = Label.take) s ∨ k < s.taken.length := by
  refine Sys.LeadsTo.of_or (r := fun s : Firmware =>
    (s.taken.length = k ∧ s.outbound.items ≠ []) ∧ s.rejection ≠ none) (fun n hp => ?_) ?_
  · by_cases hr : (σ n).rejection = none
    · exact Or.inl (Or.inl (take_enabled hr hp.2))
    · exact Or.inr ⟨hp, hr⟩
  · refine Sys.WeaklyFair.leadsTo hfair.reject h ?_ ?_ ?_
    · rintro s l t - ⟨hp, hr⟩ hst
      rcases outbound_stays hst hp with ⟨hp', -⟩ | hk
      · by_cases hr' : t.rejection = none
        · exact Or.inr (Or.inl (take_enabled hr' hp'.2))
        · exact Or.inl ⟨hp', hr'⟩
      · exact Or.inr (Or.inr hk)
    · rintro s l t - ⟨hp, -⟩ rfl hst
      rcases outbound_stays hst hp with ⟨hp', -⟩ | hk
      · cases hst
        exact Or.inl (take_enabled rfl hp'.2)
      · exact Or.inr hk
    · rintro s - ⟨-, hr⟩
      obtain ⟨om, hom⟩ := Option.ne_none_iff_exists'.mp hr
      exact Or.inl ⟨_, _, rfl, Step.reject hom⟩

/-- A queue with a message does not stay as it is. -/
theorem outbound_taken (h : (firmware env w).Behaviour σ ℓ) (hfair : FairThreads env w σ ℓ)
    (k : Nat) : Sys.LeadsTo σ (fun s => s.taken.length = k ∧ s.outbound.items ≠ [])
      fun s => k < s.taken.length := by
  refine Sys.StronglyFair.leadsTo hfair.take h ?_ ?_ (take_enabled_again h hfair k)
  · intro s l t _ hp hst
    exact (outbound_stays hst hp).imp_left And.left
  · rintro s l t - hp rfl hst
    exact (outbound_stays hst hp).resolve_left fun hne => hne.2 rfl

/-- **What was sent is taken.** Each message has a finite number of messages before it. -/
theorem sent_taken (h : (firmware env w).Behaviour σ ℓ) (hfair : FairThreads env w σ ℓ)
    (ms : List (Sender × OutMsg)) :
    Sys.LeadsTo σ (fun s => ms <+: s.sent) fun s => ms <+: s.taken := by
  refine Sys.LeadsTo.descend (fun s => ms.length - s.taken.length) fun k n hp => ?_
  obtain ⟨hsent, hk⟩ := hp
  have hprefix : (σ n).taken <+: (σ n).sent := List.prefix_append _ _
  by_cases hlen : ms.length ≤ (σ n).taken.length
  · exact ⟨n, Nat.le_refl n, Or.inl (List.prefix_of_prefix_length_le hsent hprefix hlen)⟩
  · have hne : (σ n).outbound.items ≠ [] := by
      intro hnil
      have hle := hsent.length_le
      rw [Firmware.sent, hnil, List.append_nil] at hle
      exact hlen hle
    obtain ⟨m, hnm, htaken⟩ := outbound_taken h hfair _ n ⟨rfl, hne⟩
    have hsent' : ms <+: (σ m).sent :=
      h.lasts (p := fun s : Firmware => ms <+: s.sent)
        (fun s l t _ hs hst => hs.trans (Step.sent hst).1) hnm hsent
    exact ⟨m, hnm, Or.inr ⟨hsent', by omega⟩⟩

/-- The reply that the executor waits to put is the one after `k` others. -/
def Replying (k : Nat) (s : Firmware) : Prop :=
  s.answered = k ∧ ∃ om, s.executor = .replying om

/-- The executor has a command, after `k` replies. -/
def Holding (k : Nat) (s : Firmware) : Prop :=
  s.answered = k ∧ ∃ cmd, s.executor = .holding cmd

/-- The executor waits, after `k` replies, and there is a command for it. -/
def Fetching (k : Nat) (s : Firmware) : Prop :=
  s.answered = k ∧ s.executor = .waiting ∧ s.inbound.items ≠ []

theorem replying_stays {s t : Firmware} {l : Label} {k : Nat} (hst : Step env s l t)
    (hs : Replying k s) : Replying k t ∧ l ≠ .deliver ∨ k < t.answered := by
  obtain ⟨hk, om, hom⟩ := hs
  have hans := hst.sent.2
  rw [hk] at hans
  cases hst.executorMove with
  | fetch cmd hs _ => rw [hom] at hs; cases hs
  | dispatch cmd om' hs _ => rw [hom] at hs; cases hs
  | deliver om' _ => exact Or.inr (by rw [hans]; exact Nat.lt_succ_self k)
  | other hl ht =>
    exact Or.inl ⟨⟨by rw [hans, Label.replies_eq hl.2.2, Nat.add_zero], om, ht.trans hom⟩, hl.2.2⟩

/-- The executor gets room: a full queue has its first message taken. -/
theorem room_for_reply (h : (firmware env w).Behaviour σ ℓ) (hfair : FairThreads env w σ ℓ)
    (k : Nat) : Sys.LeadsTo σ (Replying k) fun s =>
      (firmware env w).Enabled (fun l => l = Label.deliver) s ∨ k < s.answered := by
  intro n hp
  by_cases hroom : (σ n).outbound.items.length < 8
  · exact ⟨n, Nat.le_refl n, Or.inl (deliver_enabled hp.2.choose_spec hroom)⟩
  have hfull := Nat.le_antisymm (σ n).outbound.bounded (Nat.le_of_not_lt hroom)
  refine h.leadsTo_until (p := fun s : Firmware => Replying k s ∧ s.outbound.items.length = 8 ∧
    s.taken.length = (σ n).taken.length) (q := fun s : Firmware =>
    (firmware env w).Enabled (fun l => l = Label.deliver) s ∨ k < s.answered)
    (r := fun s : Firmware => (σ n).taken.length < s.taken.length) ?_ ?_ ?_ n ⟨hp, hfull, rfl⟩
  · rintro s l t - ⟨hs, hlen, htk⟩ hst
    rcases replying_stays hst hs with ⟨ht, -⟩ | hk
    · cases hst.outboundMove with
      | take m htaken hitems =>
        refine Or.inr (Or.inl (deliver_enabled ht.2.choose_spec ?_))
        rw [hitems, List.length_cons] at hlen
        omega
      | add ms hl htaken hitems hms =>
        have hbound := t.outbound.bounded
        rw [hitems, List.length_append] at hbound
        refine Or.inl ⟨ht, ?_, by rw [htaken, htk]⟩
        rw [hitems, List.length_append]
        omega
    · exact Or.inr (Or.inr hk)
  · rintro m ⟨-, hlen, htk⟩
    refine outbound_taken h hfair _ m ⟨htk, fun hnil => ?_⟩
    rw [hnil] at hlen
    cases hlen
  · rintro s ⟨-, -, htk⟩ hr
    exact absurd hr (by rw [htk]; exact Nat.lt_irrefl _)

/-- A pending reply is put. -/
theorem reply_put (h : (firmware env w).Behaviour σ ℓ) (hfair : FairThreads env w σ ℓ) (k : Nat) :
    Sys.LeadsTo σ (Replying k) fun s => k < s.answered := by
  refine Sys.StronglyFair.leadsTo hfair.deliver h ?_ ?_ (room_for_reply h hfair k)
  · intro s l t _ hs hst
    exact (replying_stays hst hs).imp_left And.left
  · rintro s l t - hs rfl hst
    exact (replying_stays hst hs).resolve_left fun hne => hne.2 rfl

theorem holding_stays {s t : Firmware} {l : Label} {k : Nat} (hst : Step env s l t)
    (hs : Holding k s) : Holding k t ∧ l ≠ .dispatch ∨ Replying k t := by
  obtain ⟨hk, cmd, hcmd⟩ := hs
  have hans := hst.sent.2
  rw [hk] at hans
  cases hst.executorMove with
  | fetch cmd' hs _ => rw [hcmd] at hs; cases hs
  | deliver om hs => rw [hcmd] at hs; cases hs
  | dispatch cmd' om _ ht => exact Or.inr ⟨hans, om, ht⟩
  | other hl ht =>
    rw [Label.replies_eq hl.2.2] at hans
    exact Or.inl ⟨⟨hans, cmd, ht.trans hcmd⟩, hl.2.1⟩

/-- A command that the executor holds is dispatched. -/
theorem command_dispatched (h : (firmware env w).Behaviour σ ℓ) (hfair : FairThreads env w σ ℓ)
    (k : Nat) : Sys.LeadsTo σ (Holding k) (Replying k) := by
  refine Sys.WeaklyFair.leadsTo hfair.dispatch h ?_ ?_ ?_
  · intro s l t _ hs hst
    exact (holding_stays hst hs).imp_left And.left
  · rintro s l t - hs rfl hst
    exact (holding_stays hst hs).resolve_left fun hne => hne.2 rfl
  · rintro s - ⟨-, cmd, hcmd⟩
    exact Or.inl ⟨_, _, rfl, Step.dispatch hcmd⟩

theorem fetching_stays {s t : Firmware} {l : Label} {k : Nat} (hst : Step env s l t)
    (hs : Fetching k s) : Fetching k t ∧ l ≠ .fetch ∨ Holding k t := by
  obtain ⟨hk, hwait, hne⟩ := hs
  have hans := hst.sent.2
  rw [hk] at hans
  cases hst.executorMove with
  | dispatch cmd' om hs _ => rw [hwait] at hs; cases hs
  | deliver om hs => rw [hwait] at hs; cases hs
  | fetch cmd _ ht => exact Or.inr ⟨hans, cmd, ht⟩
  | other hl ht =>
    rw [Label.replies_eq hl.2.2] at hans
    obtain ⟨cmds, -, hinbound⟩ := hst.intake
    refine Or.inl ⟨⟨hans, ht.trans hwait, ?_⟩, hl.1⟩
    rw [hinbound hl.1]
    exact List.append_ne_nil_of_left_ne_nil hne _

/-- A waiting executor gets a command that is there. -/
theorem command_fetched (h : (firmware env w).Behaviour σ ℓ) (hfair : FairThreads env w σ ℓ)
    (k : Nat) : Sys.LeadsTo σ (Fetching k) (Holding k) := by
  refine Sys.WeaklyFair.leadsTo hfair.fetch h ?_ ?_ ?_
  · intro s l t _ hs hst
    exact (fetching_stays hst hs).imp_left And.left
  · rintro s l t - hs rfl hst
    exact (fetching_stays hst hs).resolve_left fun hne => hne.2 rfl
  · rintro s - ⟨-, hwait, hne⟩
    obtain ⟨cmd, inbound, hq⟩ := MsgQueue.get?_of_ne_nil hne
    exact Or.inl ⟨_, _, rfl, Step.fetch hwait hq⟩

/-- **One more reply**, while an accepted command has none. -/
theorem next_answered (h : (firmware env w).Behaviour σ ℓ) (hfair : FairThreads env w σ ℓ)
    (k : Nat) : Sys.LeadsTo σ (fun s => s.answered = k ∧ k < s.accepted.length)
      fun s => k < s.answered := by
  have hholding : Sys.LeadsTo σ (Holding k) fun s => k < s.answered :=
    (command_dispatched h hfair k).trans (reply_put h hfair k)
  rintro n ⟨hk, hlt⟩
  have hlen := accepted_length (h.reachable n)
  cases he : (σ n).executor with
  | replying om => exact reply_put h hfair k n ⟨hk, om, he⟩
  | holding cmd => exact hholding n ⟨hk, cmd, he⟩
  | waiting =>
    refine ((command_fetched h hfair k).trans hholding) n ⟨hk, he, fun hnil => ?_⟩
    rw [Firmware.waiting, he, hnil, hk] at hlen
    have hzero : Executor.waiting.pending.length = 0 ∧
      (Executor.waiting.held ++ ([] : List Command)).length = 0 := ⟨rfl, rfl⟩
    omega

/-- As many replies are put as commands have been accepted by any moment. -/
theorem all_answered (h : (firmware env w).Behaviour σ ℓ) (hfair : FairThreads env w σ ℓ)
    (k : Nat) : Sys.LeadsTo σ (fun s => k ≤ s.accepted.length) fun s => k ≤ s.answered := by
  refine Sys.LeadsTo.descend (fun s => k - s.answered) fun d n hp => ?_
  obtain ⟨hacc, hd⟩ := hp
  by_cases hle : k ≤ (σ n).answered
  · exact ⟨n, Nat.le_refl n, Or.inl hle⟩
  · obtain ⟨m, hnm, hm⟩ := next_answered h hfair _ n ⟨rfl, by omega⟩
    have hacc' : k ≤ (σ m).accepted.length :=
      h.lasts (p := fun s : Firmware => k ≤ s.accepted.length) (fun s l t _ hs hst => by
        obtain ⟨cmds, ht, -⟩ := Step.intake hst
        rw [ht, List.length_append]
        exact Nat.le_add_right_of_le hs) hnm hacc
    exact ⟨m, hnm, Or.inr ⟨hacc', by omega⟩⟩

/-- The replies to the commands accepted so far: what they are when dispatched in order. -/
def Firmware.answers (env : Env) (w : World) (s : Firmware) : List OutMsg :=
  (Prog.mapList (dispatch env) s.accepted w).val

/-- The replies put so far are the first of them. -/
theorem sent_answers {s : Firmware} (h : (firmware env w).Reachable s) :
    s.sent.filterMap fromExecutor <+: s.answers env w := by
  obtain ⟨done, hx⟩ := exchange_of_reachable h
  rw [Firmware.answers, hx.accepted_eq, Prog.mapList_append_val, ← hx.replies_eq]
  simp [Firmware.replies, Firmware.sent]

/-- Later commands do not change earlier replies. -/
theorem answers_grow (h : (firmware env w).Behaviour σ ℓ) {n m : Nat} (hnm : n ≤ m) :
    (σ n).answers env w <+: (σ m).answers env w := by
  have hacc : (σ n).accepted <+: (σ m).accepted :=
    h.lasts (p := fun s : Firmware => (σ n).accepted <+: s.accepted) (fun s l t _ hs hst => by
      obtain ⟨cmds, ht, -⟩ := Step.intake hst
      exact hs.trans ⟨cmds, ht.symm⟩) hnm (List.prefix_refl _)
  obtain ⟨cmds, hcmds⟩ := hacc
  rw [Firmware.answers, Firmware.answers, ← hcmds, Prog.mapList_append_val]
  exact List.prefix_append _ _

/-- **Every accepted command is answered.** The replies to the commands accepted by moment `n` are
all taken by some later moment, in order and before any later reply. -/
theorem replies_taken (h : (firmware env w).Behaviour σ ℓ) (hfair : FairThreads env w σ ℓ)
    (n : Nat) : ∃ m, n ≤ m ∧ (σ n).answers env w <+: (σ m).taken.filterMap fromExecutor := by
  obtain ⟨m₁, hn, hans⟩ := all_answered h hfair _ n (Nat.le_refl (σ n).accepted.length)
  obtain ⟨m, hm, htaken⟩ := sent_taken h hfair (σ m₁).sent m₁ (List.prefix_refl _)
  have hsent : (σ n).answers env w <+: (σ m₁).sent.filterMap fromExecutor := by
    refine List.prefix_of_prefix_length_le (answers_grow h hn) (sent_answers (h.reachable m₁)) ?_
    rw [Firmware.answers, Prog.mapList_length]
    exact hans
  exact ⟨m, Nat.le_trans hn hm, hsent.trans (htaken.filterMap fromExecutor)⟩

/-- Nothing is left to do for the executor and for the loop that takes. -/
structure Firmware.Idle (s : Firmware) : Prop where
  inbound : s.inbound.items = []
  outbound : s.outbound.items = []
  executor : s.executor = .waiting
  rejection : s.rejection = none

/-- In an idle state, no step has to be taken. -/
theorem Firmware.Idle.disabled {s : Firmware} (hs : s.Idle) {l : Label}
    (hl : l ∈ [.fetch, .dispatch, .deliver, .reject, .take]) :
    ¬ (firmware env w).Enabled (fun l' => l' = l) s := by
  rintro ⟨l', t, rfl, hst⟩
  cases hst with
  | fetch _ hq =>
    have hitems := MsgQueue.get?_items hq
    rw [hs.inbound] at hitems
    cases hitems
  | take _ hq =>
    have hitems := MsgQueue.get?_items hq
    rw [hs.outbound] at hitems
    cases hitems
  | dispatch he => rw [hs.executor] at he; cases he
  | deliver he _ => rw [hs.executor] at he; cases he
  | reject hr => rw [hs.rejection] at hr; cases hr
  | _ => simp at hl

end Stages

/-! ## The main loop -/

section Loop

variable {env : Env} {w : World} {σ : Nat → MainLoop} {ℓ : Nat → Option MainLabel}

/-- The threads keep running, the calls of `mqtt_publish` return, and the loop comes back to its
drain again and again, as it does while there are connections. -/
structure FairLoop (env : Env) (w : World) (σ : Nat → MainLoop) (ℓ : Nat → Option MainLabel) :
    Prop where
  fetch : (mainLoop env w).WeaklyFair (fun l => l = MainLabel.thread .fetch) σ ℓ
  dispatch : (mainLoop env w).WeaklyFair (fun l => l = MainLabel.thread .dispatch) σ ℓ
  deliver : (mainLoop env w).StronglyFair (fun l => l = MainLabel.thread .deliver) σ ℓ
  reject : (mainLoop env w).WeaklyFair (fun l => l = MainLabel.thread .reject) σ ℓ
  take : (mainLoop env w).WeaklyFair (fun l => l = MainLabel.take) σ ℓ
  publish : (mainLoop env w).WeaklyFair (fun l => ∃ rc, l = MainLabel.publish rc) σ ℓ
  drains : ∀ n, ∃ m, n ≤ m ∧ (σ m).phase = .draining

/-- The labels that the firmware sees. -/
def firmwareLabels (ℓ : Nat → Option MainLabel) : Nat → Option Label :=
  fun n => (ℓ n).bind MainLabel.firmware

theorem thread_enabled {b : MainLoop} {l : Label} (hallows : b.phase.Allows l)
    (h : (firmware env w).Enabled (fun l' => l' = l) b.fw) :
    (mainLoop env w).Enabled (fun l' => l' = MainLabel.thread l) b := by
  obtain ⟨l', fw, rfl, hst⟩ := h
  exact ⟨_, _, rfl, MainStep.thread hallows hst⟩

theorem firmware_occurs {l : MainLabel} {l' : Label} (hl : l.firmware = some l') {n : Nat}
    (h : Sys.Occurs (fun l' => l' = l) ℓ n) :
    Sys.Occurs (fun l => l = l') (firmwareLabels ℓ) n := by
  obtain ⟨l₀, hn, rfl⟩ := h
  exact ⟨l', by rw [firmwareLabels, hn]; exact hl, rfl⟩

/-- Until the loop takes, a message stays in the queue. -/
theorem message_stays {b t : MainLoop} {l : MainLabel} (hst : MainStep env b l t) (hl : l ≠ .take)
    (hb : b.fw.outbound.items ≠ []) : t.fw.outbound.items ≠ [] := by
  cases hst with
  | thread hallows hfw =>
    cases hfw.outboundMove with
    | take m _ _ => exact False.elim hallows
    | add ms _ _ hitems _ =>
      rw [hitems]
      exact List.append_ne_nil_of_left_ne_nil hb _
  | take _ _ => exact absurd rfl hl
  | _ => exact hb

/-- In its drain, with a message in the queue, the loop stays there until it takes. -/
theorem draining_stays {b t : MainLoop} {l : MainLabel} (hst : MainStep env b l t)
    (hl : l ≠ .take) (hb : b.phase = .draining ∧ b.fw.outbound.items ≠ []) :
    t.phase = .draining ∧ t.fw.outbound.items ≠ [] := by
  refine ⟨?_, message_stays hst hl hb.2⟩
  cases hst with
  | thread _ _ => exact hb.1
  | connack _ => exact hb.1
  | disconnected _ => exact hb.1
  | connected h _ _ => rw [hb.1] at h; cases h
  | subscribed rc h => rw [hb.1] at h; cases h
  | enter _ _ => rfl
  | take _ _ => exact absurd rfl hl
  | publish rc _ => rfl
  | empty _ hq =>
    obtain ⟨m, q, hsome⟩ := MsgQueue.get?_of_ne_nil hb.2
    rw [hsome] at hq
    cases hq
  | process rc h _ => rw [hb.1] at h; cases h
  | leave h _ => rw [hb.1] at h; cases h
  | disconnect rc h => rw [hb.1] at h; cases h

/-- A loop that comes back to its drain takes what is there. -/
theorem FairLoop.take_occurs (hfair : FairLoop env w σ ℓ) (h : (mainLoop env w).Behaviour σ ℓ)
    {n : Nat} (hn : (σ n).fw.outbound.items ≠ []) :
    ∃ m, n ≤ m ∧ Sys.Occurs (fun l => l = MainLabel.take) ℓ m := by
  by_contra hnever
  push Not at hnever
  obtain ⟨k, hk, hphase⟩ := hfair.drains n
  have hmsg : (σ k).fw.outbound.items ≠ [] :=
    h.lasts_without (p := fun b : MainLoop => b.fw.outbound.items ≠ [])
      (fun b l t _ hl hb hst => message_stays hst hl hb) hk hn hnever
  obtain ⟨m, hm, hocc⟩ := hfair.take k fun m hm => by
    obtain ⟨hdrain, hne⟩ := h.lasts_without
      (p := fun b : MainLoop => b.phase = .draining ∧ b.fw.outbound.items ≠ [])
      (fun b l t _ hl hb hst => draining_stays hst hl hb) hm ⟨hphase, hmsg⟩
      fun j hj => hnever j (Nat.le_trans hk hj)
    obtain ⟨msg, outbound, hq⟩ := MsgQueue.get?_of_ne_nil hne
    exact ⟨_, _, rfl, MainStep.take hdrain hq⟩
  exact hnever m (Nat.le_trans hk hm) hocc

/-- The threads inside a fair loop are fair. -/
theorem FairLoop.threads (hfair : FairLoop env w σ ℓ) (h : (mainLoop env w).Behaviour σ ℓ) :
    FairThreads env w (fun n => (σ n).fw) (firmwareLabels ℓ) where
  fetch n hen := by
    obtain ⟨m, hm, hocc⟩ := hfair.fetch n fun m hm => thread_enabled trivial (hen m hm)
    exact ⟨m, hm, firmware_occurs rfl hocc⟩
  dispatch n hen := by
    obtain ⟨m, hm, hocc⟩ := hfair.dispatch n fun m hm => thread_enabled trivial (hen m hm)
    exact ⟨m, hm, firmware_occurs rfl hocc⟩
  deliver n hen := by
    obtain ⟨m, hm, hocc⟩ := hfair.deliver n fun m hm => by
      obtain ⟨k, hk, henabled⟩ := hen m hm
      exact ⟨k, hk, thread_enabled trivial henabled⟩
    exact ⟨m, hm, firmware_occurs rfl hocc⟩
  reject n hen := by
    obtain ⟨m, hm, hocc⟩ := hfair.reject n fun m hm => by
      refine thread_enabled ?_ (hen m hm)
      -- A pending rejection means that input is being read.
      obtain ⟨l, fw, rfl, hst⟩ := hen m hm
      cases hst with
      | reject hsome =>
        by_contra hreads
        have hnone := settled_of_reachable (h.reachable m) (Bool.eq_false_of_not_eq_true hreads)
        rw [hnone] at hsome
        cases hsome
    exact ⟨m, hm, firmware_occurs rfl hocc⟩
  take n hen := by
    obtain ⟨k, hk, l, fw, rfl, hst⟩ := hen n (Nat.le_refl n)
    have hne : (σ k).fw.outbound.items ≠ [] := by
      cases hst with
      | take _ hq =>
        rw [MsgQueue.get?_items hq]
        exact List.cons_ne_nil _ _
    obtain ⟨m, hm, hocc⟩ := hfair.take_occurs h hne
    exact ⟨m, Nat.le_trans hk hm, firmware_occurs rfl hocc⟩

/-- The messages whose `mqtt_publish` has returned. -/
def MainLoop.published (b : MainLoop) : List (Sender × OutMsg) := b.fw.taken.take b.calls.length

/-- Each was published with its own parameters, numbered in order. -/
theorem Sequenced.published {b : MainLoop} (h : Sequenced b) : b.calls.map PublishCall.param =
    b.published.mapIdx fun i m => m.2.publishParam (UInt16.ofNat (i + 1)) := by
  have hparams := h.params_eq
  refine List.ext_getElem? fun i => ?_
  rw [List.getElem?_mapIdx, MainLoop.published, List.getElem?_take]
  have hi := congrArg (fun ps => ps[i]?) hparams
  simp only [MainLoop.params, List.getElem?_mapIdx] at hi
  split
  · rename_i hlt
    rw [← hi, List.getElem?_append_left (by simpa using hlt)]
  · rename_i hge
    simpa using Nat.le_of_not_lt hge

/-- Outside `mqtt_publish`, every message taken has had its call. -/
theorem Sequenced.published_eq {b : MainLoop} (h : Sequenced b) (hphase : b.phase.param = none) :
    b.published = b.fw.taken := by
  have hlen := congrArg List.length h.params_eq
  rw [MainLoop.params, hphase, List.length_mapIdx] at hlen
  simp only [Option.toList_none, List.append_nil, List.length_map] at hlen
  exact List.take_of_length_le (Nat.le_of_eq hlen.symm)

/-- During `mqtt_publish`, nothing is taken. -/
theorem publishing_stays {b t : MainLoop} {l : MainLabel} {param : PublishParam OutParam}
    (hst : MainStep env b l t) (hl : ∀ rc, l ≠ .publish rc) (hb : b.phase = .publishing param) :
    t.phase = .publishing param ∧ t.fw.taken = b.fw.taken := by
  cases hst with
  | thread hallows hfw =>
    refine ⟨hb, hfw.taken_eq ?_⟩
    rintro rfl
    exact hallows
  | connack _ => exact ⟨hb, rfl⟩
  | disconnected _ => exact ⟨hb, rfl⟩
  | publish rc _ => exact absurd rfl (hl rc)
  | connected h _ _ => rw [hb] at h; cases h
  | subscribed rc h => rw [hb] at h; cases h
  | enter h _ => rw [hb] at h; cases h
  | take h _ => rw [hb] at h; cases h
  | empty h _ => rw [hb] at h; cases h
  | process rc h _ => rw [hb] at h; cases h
  | leave h _ => rw [hb] at h; cases h
  | disconnect rc h => rw [hb] at h; cases h

/-- What was taken is published: the call under way returns. -/
theorem taken_published (h : (mainLoop env w).Behaviour σ ℓ) (hfair : FairLoop env w σ ℓ)
    (ms : List (Sender × OutMsg)) :
    Sys.LeadsTo σ (fun b => ms <+: b.fw.taken) fun b => ms <+: b.published := by
  have hdone {b : MainLoop} (hb : (mainLoop env w).Reachable b) (hphase : b.phase.param = none)
      (hms : ms <+: b.fw.taken) : ms <+: b.published := by
    rwa [(sequenced_of_reachable hb).published_eq hphase]
  refine Sys.LeadsTo.of_or (r := fun b : MainLoop =>
    (∃ param, b.phase = .publishing param) ∧ ms <+: b.fw.taken) (fun n hms => ?_) ?_
  · cases hphase : (σ n).phase with
    | publishing param => exact Or.inr ⟨⟨param, rfl⟩, hms⟩
    | _ => exact Or.inl (hdone (h.reachable n) (by rw [hphase]; rfl) hms)
  · have hmove {b t : MainLoop} {l : MainLabel} (hr : (mainLoop env w).Reachable b)
        (hst : MainStep env b l t) (hb : (∃ param, b.phase = .publishing param) ∧
          ms <+: b.fw.taken) :
        ((∃ param, t.phase = .publishing param) ∧ ms <+: t.fw.taken) ∧ (∀ rc, l ≠ .publish rc) ∨
          ms <+: t.published := by
      obtain ⟨⟨param, hparam⟩, hms⟩ := hb
      by_cases hl : ∃ rc, l = .publish rc
      · obtain ⟨rc, rfl⟩ := hl
        refine Or.inr (hdone (hr.next hst) ?_ ?_)
        · cases hst with
          | publish _ _ => rfl
        · cases hst with
          | publish _ _ => exact hms
      · push Not at hl
        obtain ⟨hphase, htaken⟩ := publishing_stays hst hl hparam
        exact Or.inl ⟨⟨⟨param, hphase⟩, by rwa [htaken]⟩, hl⟩
    refine Sys.WeaklyFair.leadsTo hfair.publish h ?_ ?_ ?_
    · intro b l t hr hb hst
      exact (hmove hr hst hb).imp_left And.left
    · rintro b l t hr hb ⟨rc, rfl⟩ hst
      exact (hmove hr hst hb).resolve_left fun hne => hne.2 rc rfl
    · rintro b - ⟨⟨param, hparam⟩, -⟩
      exact Or.inl ⟨_, _, ⟨0, rfl⟩, MainStep.publish 0 hparam⟩

/-- **Every accepted command has its reply published.** The replies to the commands accepted by
moment `n` are, by some later moment, the first replies whose `mqtt_publish` has returned; each call
had the reply's own parameters. -/
theorem replies_published (h : (mainLoop env w).Behaviour σ ℓ) (hfair : FairLoop env w σ ℓ)
    (n : Nat) : ∃ m, n ≤ m ∧
      (σ n).fw.answers env w <+: (σ m).published.filterMap fromExecutor ∧
      (σ m).calls.map PublishCall.param =
        (σ m).published.mapIdx fun i msg => msg.2.publishParam (UInt16.ofNat (i + 1)) := by
  have hfw := h.refines (mainLoop_refines env w)
  obtain ⟨m₁, hn, htaken⟩ := replies_taken hfw (hfair.threads h) n
  obtain ⟨m, hm, hpub⟩ := taken_published h hfair (σ m₁).fw.taken m₁ (List.prefix_refl _)
  exact ⟨m, Nat.le_trans hn hm, htaken.trans (hpub.filterMap fromExecutor),
    (sequenced_of_reachable (h.reachable m)).published⟩

/-- A loop that ends in its drain with nothing to do is fair. -/
theorem Firmware.Idle.fairLoop {b : MainLoop} (hb : b.fw.Idle) (hphase : b.phase = .draining)
    {n₀ : Nat} (hend : ∀ n, n₀ ≤ n → σ n = b) : FairLoop env w σ ℓ := by
  have hfair {l : Label} (hl : l ∈ [Label.fetch, .dispatch, .deliver, .reject, .take]) :
      (mainLoop env w).StronglyFair (fun l' => l' = MainLabel.thread l) σ ℓ := by
    refine .of_end hend ?_
    rintro ⟨l', t, rfl, hst⟩
    cases hst with
    | thread _ hfw => exact hb.disabled (w := w) hl ⟨_, _, rfl, hfw⟩
  have htake : (mainLoop env w).StronglyFair (fun l => l = MainLabel.take) σ ℓ := by
    refine .of_end hend ?_
    rintro ⟨l, t, rfl, hst⟩
    cases hst with
    | take _ hq =>
      have hitems := MsgQueue.get?_items hq
      rw [hb.outbound] at hitems
      cases hitems
  have hpublish : (mainLoop env w).StronglyFair (fun l => ∃ rc, l = MainLabel.publish rc) σ ℓ := by
    refine .of_end hend ?_
    rintro ⟨l, t, ⟨rc, rfl⟩, hst⟩
    cases hst with
    | publish _ h => rw [hphase] at h; cases h
  exact ⟨(hfair (by simp)).weaklyFair, (hfair (by simp)).weaklyFair, hfair (by simp),
    (hfair (by simp)).weaklyFair, htake.weaklyFair, hpublish.weaklyFair,
    fun n => ⟨max n n₀, Nat.le_max_left _ _, by rw [hend _ (Nat.le_max_right _ _), hphase]⟩⟩

/-- A request is the first that comes in on a connection. -/
theorem request_received {pub : Publish} {cmd : Command}
    (hcmd : mqttCommandDecode env pub = .ok cmd) (w : World) : ∃ ls : List MainLabel,
    (mainLoop env w).Exec (.boot w) ls { MainLoop.boot w with
      fw := { Firmware.boot w with inbound := ⟨[cmd], Nat.le_succ 1⟩, accepted := [cmd] }
      phase := .processing
      mqttConnected := true } := by
  have h0 : (mainLoop env w).Exec (.boot w) [] (.boot w) := .nil _
  have h1 := h0.snoc (MainStep.connack rfl)
  have h2 := h1.snoc (MainStep.connected rfl rfl rfl)
  have h3 := h2.snoc (MainStep.subscribed 0 rfl)
  have h4 := h3.snoc (MainStep.enter rfl rfl)
  have h5 := h4.snoc (MainStep.empty rfl rfl)
  have h6 := h5.snoc (MainStep.thread (l := .receive pub) rfl (Step.receive pub rfl))
  rw [← boot_receive hcmd]
  exact ⟨_, h6⟩

/-- And its reply is published. -/
theorem request_run {pub : Publish} {cmd : Command} (hcmd : mqttCommandDecode env pub = .ok cmd)
    (w : World) : ∃ (b : MainLoop) (ls : List MainLabel),
    (mainLoop env w).Exec (.boot w) ls b ∧ b.fw.Idle ∧ b.phase = .draining ∧
      b.fw.accepted = [cmd] ∧ (b.published.filterMap fromExecutor).length = 1 := by
  obtain ⟨ls, h6⟩ := request_received hcmd w
  have h7 := h6.snoc (MainStep.thread (l := .fetch) trivial (Step.fetch rfl rfl))
  have h8 := h7.snoc (MainStep.thread (l := .dispatch) trivial (Step.dispatch rfl))
  have h9 := h8.snoc (MainStep.thread (l := .deliver) trivial (Step.deliver rfl rfl))
  have h10 := h9.snoc (MainStep.process 0 rfl rfl)
  have h11 := h10.snoc (MainStep.enter rfl rfl)
  have h12 := h11.snoc (MainStep.take rfl rfl)
  have h13 := h12.snoc (MainStep.publish 0 rfl)
  exact ⟨_, _, h13, ⟨rfl, rfl, rfl, rfl⟩, rfl, rfl, rfl⟩

theorem set_request_published : ∃ (σ : Nat → MainLoop) (n : Nat), (σ n).fw.accepted.length = 1 ∧
    ∃ m, n ≤ m ∧ (σ n).fw.answers setEnv .boot <+: (σ m).published.filterMap fromExecutor ∧
      (σ m).calls.map PublishCall.param =
        (σ m).published.mapIdx fun i msg => msg.2.publishParam (UInt16.ofNat (i + 1)) := by
  obtain ⟨cmd, hcmd⟩ := setPublish_decoded
  obtain ⟨b, ls, hexec, hidle, hphase, hacc, -⟩ := request_run hcmd .boot
  obtain ⟨σ, ℓ, hb, -, hend⟩ := hexec.behaviour (.start rfl)
  have hlast : σ ls.length = b := hend _ (Nat.le_refl _)
  refine ⟨σ, ls.length, by rw [hlast, hacc]; rfl, ?_⟩
  exact replies_published hb (hidle.fairLoop hphase hend) ls.length

/-! ## The backlog -/

section Backlog

variable {b : MainLoop}

/-- Where the accepted commands are whose replies have not been published. -/
theorem backlog_eq (h : (mainLoop env w).Reachable b) : b.fw.accepted.length =
    (b.fw.taken.filterMap fromExecutor).length +
      (b.fw.outbound.items.filterMap fromExecutor).length +
      b.fw.executor.pending.length + b.fw.executor.held.length + b.fw.inbound.items.length := by
  have hlen := accepted_length ((mainLoop_refines env w).reachable h)
  simp only [Firmware.answered, Firmware.sent, Firmware.waiting, List.filterMap_append,
    List.length_append] at hlen
  omega

/-- At most one message has been taken whose call has not returned. -/
theorem taken_le_published (h : Sequenced b) : (b.fw.taken.filterMap fromExecutor).length ≤
    (b.published.filterMap fromExecutor).length + 1 := by
  have hlen := congrArg List.length h.params_eq
  have hparam : b.phase.param.toList.length ≤ 1 := by cases b.phase.param <;> simp
  rw [MainLoop.params, List.length_mapIdx, List.length_append, List.length_map] at hlen
  have hsplit : b.published ++ b.fw.taken.drop b.calls.length = b.fw.taken :=
    List.take_append_drop _ _
  have hrest := List.length_filterMap_le fromExecutor (b.fw.taken.drop b.calls.length)
  rw [List.length_drop] at hrest
  rw [← hsplit, List.filterMap_append, List.length_append]
  omega

/-- **The backlog.** At any moment at most twelve accepted commands have no published reply; and
while there are fewer than two, a request that can be decoded is accepted. -/
theorem backlog_bounded (h : (mainLoop env w).Reachable b) :
    b.fw.accepted.length ≤ (b.published.filterMap fromExecutor).length + 12 ∧
      (b.fw.accepted.length < (b.published.filterMap fromExecutor).length + 2 →
        ∀ pub cmd, mqttCommandDecode env pub = .ok cmd →
          (mqttCommandSubmit env pub b.fw.inbound).1 = .enqueued cmd) := by
  have heq := backlog_eq h
  have hpub := taken_le_published (sequenced_of_reachable h)
  have hcap : maxPendingCommands = 2 := rfl
  refine ⟨?_, fun hlt pub cmd hcmd => ?_⟩
  · have hout := List.length_filterMap_le fromExecutor b.fw.outbound.items
    have hout' := b.fw.outbound.bounded
    have hin := b.fw.inbound.bounded
    have hexec : b.fw.executor.pending.length + b.fw.executor.held.length ≤ 1 := by
      cases b.fw.executor <;> simp [Executor.pending, Executor.held]
    omega
  · have hmono : (b.published.filterMap fromExecutor).length ≤
        (b.fw.taken.filterMap fromExecutor).length :=
      ((List.take_prefix _ _).filterMap fromExecutor).length_le
    have hroom : b.fw.inbound.items.length < maxPendingCommands := by omega
    simp only [mqttCommandSubmit, hcmd, MsgQueue.put?_of_lt hroom]

/-- A request is accepted while one waits for the executor. -/
theorem first_request_accepted : ∃ b cmd, (mainLoop setEnv .boot).Reachable b ∧
    b.fw.accepted = [cmd] ∧ b.fw.waiting = [cmd] ∧
      (mqttCommandSubmit setEnv setPublish b.fw.inbound).1 = .enqueued cmd := by
  obtain ⟨cmd, hcmd⟩ := setPublish_decoded
  obtain ⟨ls, hexec⟩ := request_received hcmd .boot
  have hreach : (mainLoop setEnv .boot).Reachable _ := ⟨_, ls, rfl, hexec⟩
  have hroom : [cmd].length < 0 + 2 := Nat.lt_succ_self 1
  exact ⟨_, cmd, hreach, rfl, rfl, (backlog_bounded hreach).2 hroom setPublish cmd hcmd⟩

end Backlog

end Loop

end Tib
