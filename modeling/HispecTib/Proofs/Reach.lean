import HispecTib.Proofs.Dispatch
import HispecTib.Proofs.Exchange
import HispecTib.Proofs.Frames
import HispecTib.Proofs.KeyPairs

/-!
# What reaches the hardware

The table is searched for the whole key, so a command that finds an entry has a key without a slash,
and the handlers of single switches, lasers and attenuators refuse such a key
(`dispatch_cases`). So whatever the running firmware receives, it stays with the power pin and the
control pins (`only_pins_reached`): no register, no DAC channel and no attenuator ever changes.
-/

open CLib

namespace Tib

/-! ## The handlers that do something -/

/-- The handlers that a command can reach with an effect. -/
def reachedFuncs : List DispatchFunc := powerFuncs ++ [.memsrouteGet, .memsrouteSet]

section Dispatch

variable {env : Env} {cmd : Command}

theorem keyPair_noSlash (env : Env) (h : chr '/' ∉ cmd.key.cstr) : (keyPair env cmd).rc ≠ 0 := by
  rw [keyPair, parseKeyPair, splitKeyPair_noSlash h]
  exact Int.negSucc_ne_zero 0

/-- A handler that splits the key refuses a key without a slash. -/
theorem refused_noSlash (h : chr '/' ∉ cmd.key.cstr) {func : DispatchFunc}
    (hf : func ∉ reachedFuncs) : ∃ om, func.run env cmd = pure om := by
  have hrc := keyPair_noSlash env h
  cases func with
  | memsGet => exact ⟨_, if_pos hrc⟩
  | memsSet => exact ⟨_, if_pos hrc⟩
  | laserSettingGet => exact ⟨_, if_pos hrc⟩
  | laserSettingSet => exact ⟨_, if_pos hrc⟩
  | attenSettingGet => exact ⟨_, if_pos hrc⟩
  | attenSettingSet => exact ⟨_, if_pos hrc⟩
  | _ => simp [reachedFuncs, powerFuncs] at hf

/-- The word of the table for a handler. -/
def DispatchFunc.word : DispatchFunc → List Byte
  | .memsrouteGet | .memsrouteSet => str "memsroute"
  | .memsGet | .memsSet => str "mems"
  | .laserSettingGet | .laserSettingSet => str "laser"
  | .powerGet | .powerSet => str "power"
  | .attenSettingGet | .attenSettingSet => str "atten"
  | .statusGet => str "status"
  | .sleepSet => str "sleep"

def DispatchFunc.isSet : DispatchFunc → Bool
  | .memsrouteSet | .memsSet | .laserSettingSet | .powerSet | .attenSettingSet | .sleepSet => true
  | _ => false

theorem dispatchTable_handlers : ∀ e ∈ dispatchTable,
    (∀ func ∈ e.getHandler, func.word = cstr e.key ∧ func.isSet = false) ∧
      ∀ func ∈ e.setHandler, func.word = cstr e.key ∧ func.isSet = true := by decide

/-- A dispatch is a fixed reply, or the call of one of the six handlers for its word. -/
theorem dispatch_cases (env : Env) (cmd : Command) : (∃ om, dispatch env cmd = pure om) ∨
    ∃ func ∈ reachedFuncs, cmd.key.cstr = func.word ∧ (cmd.msgType = .set ↔ func.isSet) ∧
      dispatch env cmd = func.run env cmd := by
  cases hfind : findDispatch cmd.key.data with
  | none => exact Or.inl ⟨_, dispatchCommand_of_none hfind _⟩
  | some e =>
    obtain ⟨hmem, hkey⟩ := findDispatch_eq_some hfind
    have hslash : chr '/' ∉ cmd.key.cstr := by
      rw [Buf.cstr, ← hkey]
      exact dispatchTable_no_slash e hmem
    rw [dispatch, dispatchCommand_of_some hfind, callSelected]
    split
    · exact Or.inl ⟨_, rfl⟩
    · rename_i func hsel
      by_cases hf : func ∈ reachedFuncs
      · obtain ⟨hget, hset⟩ := dispatchTable_handlers e hmem
        by_cases hty : cmd.msgType = .set
        · rw [if_pos hty] at hsel
          obtain ⟨hword, hisSet⟩ := hset func hsel
          exact Or.inr ⟨func, hf, (hword.trans hkey).symm, by simp [hty, hisSet], rfl⟩
        · rw [if_neg hty] at hsel
          obtain ⟨hword, hisSet⟩ := hget func hsel
          exact Or.inr ⟨func, hf, (hword.trans hkey).symm, by simp [hty, hisSet], rfl⟩
      · exact Or.inl (refused_noSlash hslash hf)

/-- What the effects on the two kinds of pins preserve, a dispatch preserves. -/
theorem dispatch_preserves {P : World → Prop} (hp : PowerEffects P) (hs : SwitchEffects P)
    (cmd : Command) : Preserves P (dispatch env cmd) := by
  rcases dispatch_cases env cmd with ⟨om, h⟩ | ⟨func, hf, -, -, h⟩ <;> rw [h]
  · exact Preserves.pure om
  · rcases List.mem_append.mp hf with hf | hf
    · exact power_preserves hp hf cmd
    · exact switches_preserve hs (by simp at hf; rcases hf with rfl | rfl <;> decide) cmd

end Dispatch

/-! ## The running firmware -/

/-- A call to the power pin or a write to a control pin of `w`, or a delay. -/
def Event.Reached (w : World) : Event → Prop
  | .call c _ => c.OfPower ∨ ∃ pin v, c = .gpioPinSet pin v ∧ ControlPin w pin
  | .sleep _ => True

/-- What has become of `w` when only pins were reached. -/
structure OnlyPins (w w' : World) : Prop where
  regs : w'.regs = w.regs
  dac : w'.dac = w.dac
  attenuators : w'.attenuators = w.attenuators
  pins : ∀ pin, ControlPin w' pin ↔ ControlPin w pin
  events : ∃ es, w'.trace = w.trace ++ es ∧ ∀ e ∈ es, e.Reached w

namespace OnlyPins

variable {w w' : World}

theorem refl (w : World) : OnlyPins w w :=
  ⟨rfl, rfl, rfl, fun _ => Iff.rfl, [], (List.append_nil _).symm, nofun⟩

theorem record (h : OnlyPins w w') {e : Event} (he : e.Reached w) : OnlyPins w (w'.record e) := by
  obtain ⟨es, htrace, hes⟩ := h.events
  refine ⟨h.regs, h.dac, h.attenuators, h.pins, es ++ [e], ?_, fun e' he' => ?_⟩
  · rw [World.record_trace, htrace, List.append_assoc]
  · rcases List.mem_append.mp he' with he' | he'
    · exact hes e' he'
    · rw [List.mem_singleton.mp he']
      exact he

theorem gpioPinSet (h : OnlyPins w w') (pin : GpioPin) (v : Bool) :
    OnlyPins w (w'.apply (.gpioPinSet pin v)) :=
  ⟨h.regs, h.dac, h.attenuators, h.pins, h.events⟩

theorem setState (h : OnlyPins w w') (sw : SwitchPtr) (b : Byte) :
    OnlyPins w (w'.setSwitch sw { w'.switches sw with state := b }) :=
  ⟨h.regs, h.dac, h.attenuators, fun pin => controlPin_setState.trans (h.pins pin), h.events⟩

/-- **One command.** -/
theorem dispatch (env : Env) (cmd : Command) : Preserves (OnlyPins w) (dispatch env cmd) := by
  refine dispatch_preserves ⟨fun w' c rc hc h => h.record (Or.inl hc),
    fun w' ms h => h.record trivial, fun w' v h => h.gpioPinSet _ v⟩
    ⟨fun w' pin v rc hpin h => h.record (Or.inr ⟨pin, v, rfl, (h.pins pin).mp hpin⟩),
      fun w' ms h => h.record trivial, fun w' pin v _ h => h.gpioPinSet pin v,
      fun w' sw b h => h.setState sw b⟩ cmd

end OnlyPins

/-- A request that was received and dispatched. -/
theorem request_dispatched {env : Env} {pub : Publish} {cmd : Command}
    (hcmd : mqttCommandDecode env pub = .ok cmd) (w : World) :
    ∃ s : Firmware, (firmware env w).Reachable s ∧ s.accepted = [cmd] ∧ s.waiting = [] ∧
      s.world = (dispatch env cmd w).post := by
  have h0 : (firmware env w).Reachable (.boot w) := .start rfl
  have h1 := h0.next (Step.receive pub rfl)
  rw [boot_receive hcmd] at h1
  have h2 := h1.next (Step.fetch rfl rfl)
  exact ⟨_, h2.next (Step.dispatch rfl), rfl, rfl, rfl⟩

end Tib
