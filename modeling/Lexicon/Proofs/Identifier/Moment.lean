import Lexicon.Proofs.Calendar
import Lexicon.Proofs.Identifier.Tid

/-!
# Timestamp identifiers and moments

The time of an identifier is the place of its moment on the line of microseconds. Main statement: an
identifier is made of exactly those moments that lie in the 54 bits from the beginning of 1970 on,
its moment is the same instant in UTC, and this moment gives the identifier back.
-/

namespace Lexicon.Tid

open Calendar

/-- Parts are put together exactly if they fit. -/
theorem ofParts_eq_ok_iff {timestamp clockId : Int} {t : Tid} :
    ofParts timestamp clockId = .ok t ↔ t.timestamp = timestamp ∧ t.clockId = clockId := by
  constructor
  · intro h
    unfold ofParts at h
    split_ifs at h with ht hc
    obtain rfl := Except.ok.inj h
    exact ⟨Int.toNat_of_nonneg ht.1, Int.toNat_of_nonneg hc.1⟩
  · rintro ⟨rfl, rfl⟩
    exact t.ofParts_natCast

theorem ofMoment_eq_ok_iff {m : Moment} {clockId : Int} {t : Tid} :
    ofMoment m clockId = .ok t ↔ t.timestamp = m.sinceEpoch ∧ t.clockId = clockId := by
  rw [ofMoment, Duration.inMicroseconds_ofMicroseconds, ofParts_eq_ok_iff]

theorem sinceEpoch_moment (t : Tid) : t.moment.sinceEpoch = t.timestamp :=
  Moment.sinceEpoch_ofMicroseconds t.timestamp

theorem isReal_moment (t : Tid) : t.moment.IsReal :=
  Moment.isReal_ofMicroseconds t.timestamp_lt

theorem exists_ofMoment_iff {m : Moment} {clockId : Int} (nonneg : 0 ≤ clockId)
    (lt : clockId < 1024) :
    (∃ t, ofMoment m clockId = .ok t) ↔ 0 ≤ m.sinceEpoch ∧ m.sinceEpoch < 2 ^ 54 := by
  constructor
  · rintro ⟨t, h⟩
    have fits := t.timestamp_lt
    have time := (ofMoment_eq_ok_iff.mp h).1
    omega
  · intro fits
    let t : Tid := ⟨m.sinceEpoch.toNat, clockId.toNat, by omega, by omega⟩
    exact ⟨t, ofMoment_eq_ok_iff.mpr
      ⟨Int.toNat_of_nonneg fits.1, Int.toNat_of_nonneg nonneg⟩⟩

/-- The moment of an identifier is the only real one in UTC at its time. -/
theorem eq_moment_iff {t : Tid} {m : Moment} :
    m = t.moment ↔ m.IsReal ∧ m.offset = .utc ∧ m.sinceEpoch = t.timestamp := by
  constructor
  · rintro rfl
    exact ⟨t.isReal_moment, rfl, t.sinceEpoch_moment⟩
  · rintro ⟨real, utc, time⟩
    exact real.eq_of_sinceEpoch_eq t.isReal_moment utc (time.trans t.sinceEpoch_moment.symm)

/-- **Identifiers and moments convert without loss.** With any clock, an identifier is made of a
moment exactly if it lies in the 54 bits from the beginning of 1970 on. The moment of this
identifier is the same instant, as it is written in UTC. The moment of an identifier gives the
identifier back. -/
theorem ofMoment_iff_moment :
    (∀ (m : Moment) (clockId : Int), 0 ≤ clockId → clockId < 1024 →
      ((∃ t, ofMoment m clockId = .ok t) ↔ 0 ≤ m.sinceEpoch ∧ m.sinceEpoch < 2 ^ 54) ∧
        ∀ t, ofMoment m clockId = .ok t → t.clockId = clockId ∧
          ∀ u, u = t.moment ↔ u.IsReal ∧ u.offset = .utc ∧ u.sinceEpoch = m.sinceEpoch) ∧
      ∀ t : Tid, ofMoment t.moment t.clockId = .ok t := by
  refine ⟨fun m clockId nonneg lt => ⟨exists_ofMoment_iff nonneg lt, fun t h => ?_⟩, fun t => ?_⟩
  · obtain ⟨time, clock⟩ := ofMoment_eq_ok_iff.mp h
    refine ⟨clock, fun u => ?_⟩
    rw [← time, eq_moment_iff]
  · exact ofMoment_eq_ok_iff.mpr ⟨t.sinceEpoch_moment.symm, rfl⟩

/-- Half past midnight on New Year's Day, in a zone a little over five and a half hours ahead, is an
instant of the old year in UTC. -/
theorem ofMoment_iff_moment_new_year :
    ∃ t, ofMoment ⟨⟨2024, 1, 1⟩, 0, 30, 0, 0, ⟨19800000001⟩⟩ 6 = .ok t ∧
      t.moment = ⟨⟨2023, 12, 31⟩, 18, 59, 59, 999999, .utc⟩ := by
  obtain ⟨made, same⟩ := ofMoment_iff_moment.1 ⟨⟨2024, 1, 1⟩, 0, 30, 0, 0, ⟨19800000001⟩⟩ 6
    (by decide) (by decide)
  obtain ⟨t, ht⟩ := made.mpr (by decide)
  refine ⟨t, ht, Eq.symm (((same t ht).2 _).mpr ⟨?_, rfl, by decide⟩)⟩
  constructor <;> decide

end Lexicon.Tid
