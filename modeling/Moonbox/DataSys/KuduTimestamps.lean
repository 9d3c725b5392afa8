import Moonbox.Lib.SqlTimestamps

/-!
# Timestamps of Kudu

A column of Kudu has the microseconds since the epoch. `ExpressionUtils` turns them into a timestamp
and back.
-/

namespace Moonbox.DataSys.Kudu

def timestampToMicros (timestamp : Timestamp) : Int64 :=
  let millis := timestamp.getTime * 1000
  let micros := timestamp.nanos % 1000000 / 1000
  if micros ≥ 0 then millis + micros.toInt64 else millis + 1000000 + micros.toInt64

def microsToTimestamp (micros : Int64) : Except String Timestamp :=
  let millis := micros / 1000
  let nanos := micros % 1000000 * 1000
  if nanos < 0 then
    (Timestamp.ofTime (millis - 1)).setNanos (nanos + 1000000000).toInt32
  else (Timestamp.ofTime millis).setNanos nanos.toInt32

/-! ### What they stand for -/

/-- The timestamp of a number of microseconds is legal, and it is that instant. -/
lemma microsToTimestamp_spec (micros : Int64) :
    ∃ t, microsToTimestamp micros = .ok t ∧ t.IsLegal ∧ t.instant = micros.toInt * 1000 := by
  have hge := micros.le_toInt
  have hlt := micros.toInt_lt
  have hdiv := Timestamp.tdiv_eq micros.toInt 1000
  have hmod := Timestamp.tmod_eq micros.toInt 1000000
  have hmillis : (micros / 1000).toInt = micros.toInt.tdiv 1000 :=
    Int64.toInt_div_of_ne_right _ _ (by decide)
  have hnanos : (micros % 1000000 * 1000).toInt = micros.toInt.tmod 1000000 * 1000 := by
    simp only [Int64.toInt_mul, Int64.toInt_mod, Int64.reduceToInt]
    exact Int.bmod_eq_of_le_mul_two (by omega) (by omega)
  unfold microsToTimestamp
  simp only [Int64.lt_iff_toInt_lt, hnanos, Int64.reduceToInt]
  split
  · have hsecond : (micros / 1000 - 1).toInt = micros.toInt.tdiv 1000 - 1 := by
      simp only [Int64.toInt_sub, hmillis, Int64.reduceToInt]
      exact Int.bmod_eq_of_le_mul_two (by omega) (by omega)
    have hrest : (micros % 1000000 * 1000 + 1000000000).toInt =
        micros.toInt.tmod 1000000 * 1000 + 1000000000 := by
      simp only [Int64.toInt_add, hnanos, Int64.reduceToInt]
      exact Int.bmod_eq_of_le_mul_two (by omega) (by omega)
    obtain ⟨t, ht, hlegal, hinstant⟩ :=
      Timestamp.setNanos_ofTime (micros / 1000 - 1) (micros % 1000000 * 1000 + 1000000000)
        (by omega) (by omega) (by omega)
    refine ⟨t, ht, hlegal, ?_⟩
    rw [hinstant, hsecond, hrest]
    omega
  · obtain ⟨t, ht, hlegal, hinstant⟩ :=
      Timestamp.setNanos_ofTime (micros / 1000) (micros % 1000000 * 1000)
        (by omega) (by omega) (by omega)
    refine ⟨t, ht, hlegal, ?_⟩
    rw [hinstant, hmillis, hnanos]
    omega

/-- What is less than a microsecond is left out. -/
lemma toInt_timestampToMicros {t : Timestamp} (h : t.IsLegal) :
    (timestampToMicros t).toInt = (t.instant / 1000).bmod (2 ^ 64) := by
  have hnonneg := h.1
  have hmicros : (t.nanos % 1000000 / 1000).toInt = t.nanos.toInt % 1000000 / 1000 := by
    rw [Int32.toInt_div_of_ne_right _ _ (by decide), Int32.toInt_mod]
    simp only [Int32.reduceToInt]
    rw [Int.tmod_eq_emod_of_nonneg hnonneg, Int.tdiv_eq_ediv_of_nonneg (by omega)]
  have hpos : t.nanos % 1000000 / 1000 ≥ 0 := by
    simp only [ge_iff_le, Int32.le_iff_toInt_le, hmicros, Int32.reduceToInt]
    omega
  simp only [timestampToMicros, if_pos hpos, Int64.toInt_add, Int64.toInt_mul, Int32.toInt_toInt64,
    hmicros, Timestamp.toInt_getTime h, Int64.reduceToInt, Int.bmod_mul_bmod, Int.bmod_add_bmod]
  congr 1
  rw [Timestamp.instant]
  omega

/-- The microseconds of any column come back, and no timestamp on the way is refused. -/
theorem timestampToMicros_microsToTimestamp (micros : Int64) :
    ∃ timestamp, microsToTimestamp micros = .ok timestamp ∧
      0 ≤ timestamp.nanos ∧ timestamp.nanos ≤ 999999999 ∧
      timestampToMicros timestamp = micros := by
  obtain ⟨t, ht, hlegal, hinstant⟩ := microsToTimestamp_spec micros
  refine ⟨t, ht, Int32.le_iff_toInt_le.mpr hlegal.1, Int32.le_iff_toInt_le.mpr hlegal.2, ?_⟩
  rw [← Int64.toInt_inj, toInt_timestampToMicros hlegal, hinstant,
    Int.mul_ediv_cancel _ (by decide)]
  have hge := micros.le_toInt
  have hlt := micros.toInt_lt
  exact Int.bmod_eq_of_le_mul_two (by omega) (by omega)

end Moonbox.DataSys.Kudu
