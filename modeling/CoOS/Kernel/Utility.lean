/-
  Time and ticks (`utility.c`): `CoTickToTime` and `CoTimeToTick`.

  `CoTickToTime` takes a tick as `1000 / CFG_SYSTICK_FREQ` whole milliseconds, `CoTimeToTick`
  multiplies the milliseconds by the frequency and rounds. Both directions together are one rounded
  division (`coTimeToTick_coTickToTime`), so what is lost of a tick adds up with the ticks:
  `tick_time_tick` says how far the two are inverse.
-/
import CoOS.Kernel.State
import Mathlib.Tactic.Ring

namespace CoOS

/-- `CFG_SYSTICK_FREQ`, from 1 to 1000 (`OsError.h`). -/
structure TickCfg where
  CFG_SYSTICK_FREQ : Nat
  freq_ge : 1 ≤ CFG_SYSTICK_FREQ
  freq_le : CFG_SYSTICK_FREQ ≤ 1000

/-- The `U8` and `U16` outputs of `CoTickToTime`. -/
structure Time where
  hour : Nat
  minute : Nat
  sec : Nat
  millsec : Nat
  deriving DecidableEq, Repr

/-- `CoTickToTime`. -/
def coTickToTime (cfg : TickCfg) (ticks : Nat) : Time :=
  let totalTime := ticks * (1000 / cfg.CFG_SYSTICK_FREQ) % 2 ^ 32
  let millsec := totalTime % 1000 % 2 ^ 16
  let totalTime := totalTime / 1000
  let sec := totalTime % 60 % 2 ^ 8
  let totalTime := totalTime / 60
  let minute := totalTime % 60 % 2 ^ 8
  let totalTime := totalTime / 60
  ⟨totalTime % 2 ^ 8, minute, sec, millsec⟩

/-- The check of the arguments of `CoTimeToTick`. -/
def Time.Bad (t : Time) : Prop := 59 < t.minute ∨ 59 < t.sec ∨ 999 < t.millsec

instance (t : Time) : Decidable t.Bad := inferInstanceAs (Decidable (_ ∨ _))

/-- `CoTimeToTick`: the status, and what is written to `*ticks`. -/
def coTimeToTick (cfg : TickCfg) (t : Time) : StatusType × Option Nat :=
  if t.Bad then (.E_INVALID_PARAMETER, none)
  else (.E_OK, some (((t.hour * 3600 + t.minute * 60 + t.sec) * cfg.CFG_SYSTICK_FREQ
    + (t.millsec * cfg.CFG_SYSTICK_FREQ + 500) / 1000) % 2 ^ 32))

section Conversion

variable {cfg : TickCfg} {ticks : Nat}

theorem TickCfg.quotient (cfg : TickCfg) :
    cfg.CFG_SYSTICK_FREQ * (1000 / cfg.CFG_SYSTICK_FREQ) + 1000 % cfg.CFG_SYSTICK_FREQ = 1000 :=
  Nat.div_add_mod ..

/-- Less than 256 hours are less than 256 hours of milliseconds, and nothing wraps. -/
theorem TickCfg.total_lt (cfg : TickCfg) (h : ticks < 256 * 3600 * cfg.CFG_SYSTICK_FREQ) :
    ticks * (1000 / cfg.CFG_SYSTICK_FREQ) < 256 * 3600 * 1000 := by
  have hq := cfg.quotient
  have hpos : 0 < 1000 / cfg.CFG_SYSTICK_FREQ := Nat.div_pos cfg.freq_le cfg.freq_ge
  calc ticks * (1000 / cfg.CFG_SYSTICK_FREQ)
      < 256 * 3600 * cfg.CFG_SYSTICK_FREQ * (1000 / cfg.CFG_SYSTICK_FREQ) :=
        Nat.mul_lt_mul_of_pos_right h hpos
    _ = 256 * 3600 * (cfg.CFG_SYSTICK_FREQ * (1000 / cfg.CFG_SYSTICK_FREQ)) := Nat.mul_assoc ..
    _ ≤ 256 * 3600 * 1000 := Nat.mul_le_mul_left _ (by omega)

/-- Then the time is the quotients of the milliseconds. -/
theorem coTickToTime_eq {total : Nat} (ht : ticks * (1000 / cfg.CFG_SYSTICK_FREQ) = total)
    (h : total < 256 * 3600 * 1000) :
    coTickToTime cfg ticks = ⟨total / 1000 / 60 / 60, total / 1000 / 60 % 60, total / 1000 % 60,
      total % 1000⟩ := by
  unfold coTickToTime
  rw [ht, Nat.mod_eq_of_lt (show total < 2 ^ 32 by omega)]
  dsimp only
  rw [Nat.mod_eq_of_lt (show total % 1000 < 2 ^ 16 by omega),
    Nat.mod_eq_of_lt (show total / 1000 % 60 < 2 ^ 8 by omega),
    Nat.mod_eq_of_lt (show total / 1000 / 60 % 60 < 2 ^ 8 by omega),
    Nat.mod_eq_of_lt (show total / 1000 / 60 / 60 < 2 ^ 8 by omega)]

/-- Whatever `CoTickToTime` returns is a time that `CoTimeToTick` accepts. -/
theorem coTickToTime_not_bad (cfg : TickCfg) (ticks : Nat) : ¬ (coTickToTime cfg ticks).Bad := by
  unfold Time.Bad coTickToTime
  dsimp only
  omega

/-- There and back, the milliseconds of the ticks are divided by those of a second, and rounded. -/
theorem coTimeToTick_coTickToTime (h : ticks < 256 * 3600 * cfg.CFG_SYSTICK_FREQ) :
    coTimeToTick cfg (coTickToTime cfg ticks) =
      (.E_OK, some ((ticks * (1000 / cfg.CFG_SYSTICK_FREQ) * cfg.CFG_SYSTICK_FREQ + 500) /
        1000)) := by
  obtain ⟨total, ht⟩ : ∃ total, ticks * (1000 / cfg.CFG_SYSTICK_FREQ) = total := ⟨_, rfl⟩
  have hlt : total < 256 * 3600 * 1000 := ht ▸ cfg.total_lt h
  have hok := coTickToTime_not_bad cfg ticks
  have hf := cfg.freq_le
  rw [coTimeToTick, if_neg hok, coTickToTime_eq ht hlt, ht]
  have hsec : total / 1000 / 60 / 60 * 3600 + total / 1000 / 60 % 60 * 60 + total / 1000 % 60 =
    total / 1000 := by
    omega
  -- the whole seconds come out of the division
  have hsplit : total * cfg.CFG_SYSTICK_FREQ + 500 =
      1000 * (total / 1000 * cfg.CFG_SYSTICK_FREQ) +
        (total % 1000 * cfg.CFG_SYSTICK_FREQ + 500) := by
    calc total * cfg.CFG_SYSTICK_FREQ + 500
        = (1000 * (total / 1000) + total % 1000) * cfg.CFG_SYSTICK_FREQ + 500 := by
          rw [Nat.div_add_mod]
      _ = _ := by ring
  have hle : total * cfg.CFG_SYSTICK_FREQ ≤ 256 * 3600 * 1000 * 1000 := Nat.mul_le_mul (by omega) hf
  dsimp only
  rw [hsec, hsplit, Nat.mul_add_div (by decide), Nat.mod_eq_of_lt]
  omega

/-- **Ticks, time, ticks.** The conversions are inverse exactly as long as the whole milliseconds
    lose at most half a tick of all the ticks. -/
theorem tick_time_tick (h : ticks < 256 * 3600 * cfg.CFG_SYSTICK_FREQ) :
    coTimeToTick cfg (coTickToTime cfg ticks) = (.E_OK, some ticks) ↔
      1000 % cfg.CFG_SYSTICK_FREQ * ticks ≤ 500 := by
  rw [coTimeToTick_coTickToTime h]
  have hq : ticks * (1000 / cfg.CFG_SYSTICK_FREQ) * cfg.CFG_SYSTICK_FREQ +
    1000 % cfg.CFG_SYSTICK_FREQ * ticks =
      1000 * ticks := by
    calc ticks * (1000 / cfg.CFG_SYSTICK_FREQ) * cfg.CFG_SYSTICK_FREQ +
      1000 % cfg.CFG_SYSTICK_FREQ * ticks
        = (cfg.CFG_SYSTICK_FREQ * (1000 / cfg.CFG_SYSTICK_FREQ) + 1000 % cfg.CFG_SYSTICK_FREQ) *
          ticks := by ring
      _ = 1000 * ticks := by rw [cfg.quotient]
  constructor
  · intro e
    have e' := Option.some.inj (Prod.mk.inj e).2
    omega
  · intro hle
    have e : (ticks * (1000 / cfg.CFG_SYSTICK_FREQ) * cfg.CFG_SYSTICK_FREQ + 500) / 1000 =
      ticks := by omega
    rw [e]

/-- A second of 100 ticks. -/
def shippedTick : TickCfg := ⟨100, by decide, by decide⟩

theorem tick_time_tick_shipped :
    coTimeToTick shippedTick (coTickToTime shippedTick 100) = (.E_OK, some 100) ↔
      1000 % shippedTick.CFG_SYSTICK_FREQ * 100 ≤ 500 :=
  tick_time_tick (by decide)

/-- At 300 ticks a second, a tick counts as 3 milliseconds: 300 ticks become 900 milliseconds, and
    these 270 ticks. -/
theorem tick_time_tick_lost : 300 < 256 * 3600 * 300 ∧
    coTimeToTick ⟨300, by decide, by decide⟩ (coTickToTime ⟨300, by decide, by decide⟩ 300) =
      (.E_OK, some 270) := by
  decide

end Conversion

end CoOS
