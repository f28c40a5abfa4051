import BitSerial.Proofs.Headroom
import BitSerial.Proofs.Padding

/-! # Schedules of padded products

The rows of a padded operand begin at aligned addresses, and so do its row tiles and its planes. What may be out of line
is the stride of tiles along the common dimension, a segment of a row. If there is a second tile along it, the second
step of the schedule asks for that tile and is turned down, unless segments are aligned as well. Otherwise no step is
turned down. Whatever else could stop a schedule is an overflow, and there is none while addresses and counts have room.
-/

namespace BitSerial

namespace TilePlan

variable {plan : TilePlan} {geometry : Geometry} {gemm : Gemm}

/-- Two tiles of an operand are among its bytes, if there are two along the common dimension. -/
theorem ofGemm_two_tiles_le (h : TilePlan.ofGemm geometry gemm = .ok plan) (hmany : 1 < plan.commonTiles)
    {operand : Operand} {bytes : Nat} (hbytes : (gemm.operand operand).bytes = .ok bytes) :
    2 * (plan.operand operand).tileBytes ≤ bytes := by
  have hcuts := ofGemm_cuts h
  rw [ofGemm_tileBytes h, (hcuts.shape operand).bytes_eq hbytes, Nat.mul_assoc]
  calc 2 * ((plan.operand operand).tileRows * (plan.operand operand).segment)
      ≤ plan.commonTiles * ((plan.operand operand).tileRows * (plan.operand operand).segment) :=
        Nat.mul_le_mul_right _ hmany
    _ = (plan.operand operand).tileRows * (gemm.operand operand).rowBytes := by
        rw [Nat.mul_left_comm, hcuts.commonTiles_mul_segment]
    _ ≤ (gemm.operand operand).paddedRows * (gemm.operand operand).rowBytes :=
        Nat.mul_le_mul_right _ (hcuts.tileRows_le operand)
    _ ≤ (gemm.operand operand).bits * ((gemm.operand operand).paddedRows * (gemm.operand operand).rowBytes) :=
        Nat.le_mul_of_pos_left _ (hcuts.shape operand).bits_pos

end TilePlan

namespace Layout

/-- The buffers of a product begin at aligned addresses and end where addresses still fit their words. -/
structure Lodged (layout : Layout) : Prop where
  operand : ∀ operand, addressAlign ∣ layout.addresses.operand operand ∧
    ∃ bytes, (layout.gemm.operand operand).bytes = .ok bytes ∧ layout.addresses.operand operand + bytes < Word64.size
  result : addressAlign ∣ layout.addresses.result ∧
    ∃ bytes, layout.gemm.resultBytes = .ok bytes ∧ layout.addresses.result + bytes < Word64.size

variable {layout : Layout} {operand : Operand} {bandPairs output step : Nat} {progress : Progress}

theorem Lodged.housed (h : layout.Lodged) : layout.Housed :=
  ⟨fun operand => (h.operand operand).2, h.result.2⟩

/-- A step that knows nothing of its slot transfers what it needs, so that has to be aligned. -/
theorem StepWritten.aligned_of_unknown {addresses : PerOperand Nat} {blocks : PerOperand (Option FetchBlock)}
    {start middle last : Residency} {bytes : Nat}
    (h : layout.StepWritten output step addresses blocks start middle last bytes)
    (hunknown : start.known operand (layout.stepSlot output step) = none) :
    addressAlign ∣ addresses.get operand := by
  rcases (h.known operand).2 with ⟨block, hblock, haddress⟩ | ⟨-, hknown⟩
  · have haligned := h.aligned operand
    rw [hblock] at haligned
    simp only [checkTransfer, bind_eq_ok_iff, demandShape_eq_ok_iff, haddress] at haligned
    obtain ⟨_, hbegin, -⟩ := haligned
    exact Nat.dvd_of_mod_eq_zero hbegin
  · rw [hunknown] at hknown
    cases hknown

theorem writeEach_turned_down {α : Type} {allowed : Failure → Prop}
    {write : Nat → Progress → Except Failure (α × Progress)} {count position : Nat} {before : List α}
    (hcount : 0 < count) (h : Ends allowed (write position progress) fun _ => False) :
    Ends allowed (writeEach write count position progress before) fun _ => False := by
  obtain ⟨count, rfl⟩ := Nat.exists_eq_succ_of_ne_zero (Nat.ne_of_gt hcount)
  exact h.bind fun _ => False.elim

/-- A schedule whose answers and bytes can be counted is written or turned down. -/
theorem schedule_refuses (hplan : TilePlan.ofGemm layout.geometry layout.gemm = .ok layout.plan)
    (hlodged : layout.Lodged) {start : Residency} (hcounts : layout.CountsBytes start) :
    Fails Failure.IsRefusal (layout.schedule start) :=
  schedule_fails hplan hlodged.housed hcounts

section Slanted

variable (hplan : TilePlan.ofGemm layout.geometry layout.gemm = .ok layout.plan) (hlodged : layout.Lodged)
  (hmany : 1 < layout.plan.commonTiles)

include hplan hlodged hmany

theorem pairBytes_lt : layout.pairBytes < Word64.size := by
  obtain ⟨-, lhsBytes, hlhsBytes, hlhsEnd⟩ := hlodged.operand .lhs
  obtain ⟨-, rhsBytes, hrhsBytes, hrhsEnd⟩ := hlodged.operand .rhs
  have hlhs : 2 * layout.plan.lhs.tileBytes ≤ lhsBytes := TilePlan.ofGemm_two_tiles_le hplan hmany hlhsBytes
  have hrhs : 2 * layout.plan.rhs.tileBytes ≤ rhsBytes := TilePlan.ofGemm_two_tiles_le hplan hmany hrhsBytes
  unfold pairBytes
  omega

omit hlodged in
theorem two_le_stepCount : 2 ≤ layout.nest.stepCount := by
  have hcuts := TilePlan.ofGemm_cuts hplan
  exact Nat.le_trans hmany
    (Nat.le_mul_of_pos_left _ (Nat.mul_pos (hcuts.shape .lhs).bits_pos (hcuts.shape .rhs).bits_pos))

/-- The first steps of a schedule need the first tiles along the common dimension. -/
theorem neededAddress_early (hstep : step < 2) (operand : Operand) : layout.neededAddress operand 0 step =
    .ok (layout.addresses.operand operand + step * (layout.plan.operand operand).segment) := by
  have hcommon : step < layout.nest.commonTiles := Nat.lt_of_lt_of_le hstep hmany
  have htile : layout.neededTile operand 0 step = ⟨0, 0, step⟩ := by
    cases operand <;> simp [neededTile, LoopNest.stepIndex, StepIndex.plane, LoopNest.rowTile, LoopNest.lhsTile,
      LoopNest.rhsTile, Nat.div_eq_of_lt hcommon, Nat.mod_eq_of_lt hcommon]
  rw [hlodged.housed.neededAddress hplan operand (TilePlan.ofGemm_cuts hplan).outputCount_pos
    (Nat.lt_of_lt_of_le hstep (two_le_stepCount hplan hmany)), htile, tileOffset_eq]
  simp

/-- After its first step a schedule still knows nothing of the second slot. -/
theorem writeStep_first {start : Residency} (hunknown : start.tiles = .both (.both none)) (hroom : start.Room 4) :
    Ends Failure.IsRefusal (layout.writeStep bandPairs 0 0 ⟨start, ⟨0, 0⟩⟩) fun found =>
      found.2.residency.Room 2 ∧ found.2.residency.known .lhs 1 = none := by
  have hpair := pairBytes_lt hplan hlodged hmany
  have hsteps := two_le_stepCount hplan hmany
  have hhits := hroom.hits
  have hmisses := hroom.misses
  refine ⟨writeStep_refuses hplan hlodged.housed (TilePlan.ofGemm_cuts hplan).outputCount_pos (by omega)
    ⟨by dsimp only; omega, by dsimp only; omega⟩ hpair ?_, ?_⟩
  · intro addresses blocks middle last bytes hwritten
    have hle := hwritten.bytes_le hplan
    dsimp only
    omega
  · rintro ⟨written, next⟩ hnext
    obtain ⟨addresses, blocks, middle, bytes, hwritten, -⟩ := writeStep_eq_ok_iff.mp hnext
    have hslot : layout.stepSlot 0 0 = 0 := by simp [stepSlot]
    refine ⟨hwritten.room hroom, ?_⟩
    rw [(hwritten.known .lhs).1.2 1 (by decide) (by rw [hslot]; decide), Residency.known, hunknown]
    rfl

/-- The second step transfers the second tile of the left operand, which begins a segment after the first one. -/
theorem writeStep_second (hslanted : ¬ addressAlign ∣ layout.plan.lhs.segment) (hroom : progress.residency.Room 2)
    (hunknown : progress.residency.known .lhs 1 = none) :
    Ends Failure.IsRefusal (layout.writeStep bandPairs 0 1 progress) fun _ => False := by
  have hunaligned : ∀ addresses blocks middle last bytes,
      ¬ layout.StepWritten 0 1 addresses blocks progress.residency middle last bytes := by
    intro addresses blocks middle last bytes hwritten
    have hslot : layout.stepSlot 0 1 = 1 := by simp [stepSlot, operandSlots]
    have haligned := hwritten.aligned_of_unknown (hslot.symm ▸ hunknown)
    have haddress := (hwritten.address .lhs).symm.trans (neededAddress_early hplan hlodged hmany (by decide) .lhs)
    rw [Except.ok.inj haddress, Nat.one_mul] at haligned
    exact hslanted ((Nat.dvd_add_right (hlodged.operand .lhs).1).mp haligned)
  refine ⟨writeStep_refuses hplan hlodged.housed (TilePlan.ofGemm_cuts hplan).outputCount_pos
    (two_le_stepCount hplan hmany) hroom (pairBytes_lt hplan hlodged hmany) ?_, ?_⟩
  · exact fun addresses blocks middle last bytes hwritten => absurd hwritten (hunaligned _ _ _ _ _)
  · rintro ⟨written, next⟩ hnext
    obtain ⟨addresses, blocks, middle, bytes, hwritten, -⟩ := writeStep_eq_ok_iff.mp hnext
    exact hunaligned _ _ _ _ _ hwritten

/-- A product whose segments are not aligned is turned down by its second step, if not by its first. -/
theorem schedule_turned_down {start : Residency} (hunknown : start.tiles = .both (.both none)) (hroom : start.Room 4)
    (hslanted : ¬ addressAlign ∣ layout.plan.lhs.segment) :
    ∃ failure, layout.schedule start = .error failure ∧ failure.IsRefusal := by
  have hsteps := two_le_stepCount hplan hmany
  obtain ⟨rest, hrest⟩ := Nat.exists_eq_add_of_le' hsteps
  obtain ⟨found, hbandPairs⟩ := bandPairs_total hplan hlodged.housed
  apply Ends.exists_error
  unfold schedule
  rw [lift_bind_of_ok hbandPairs]
  refine (writeEach_turned_down (TilePlan.ofGemm_cuts hplan).outputCount_pos ?_).bind fun _ => False.elim
  unfold writeOutput
  rw [hrest]
  refine ((writeStep_first hplan hlodged hmany hunknown hroom).bind ?_).bind fun _ => False.elim
  rintro ⟨written, progress⟩ ⟨hprogress, hsecond⟩
  exact writeEach_turned_down (Nat.succ_pos _) (writeStep_second hplan hlodged hmany hslanted hprogress hsecond)

end Slanted

/-- Where rows begin at aligned addresses, only the tiles along the common dimension may not. -/
theorem Lodged.aligned (hlodged : layout.Lodged) (hcuts : layout.plan.Cuts layout.geometry layout.gemm)
    (hrows : ∀ operand, addressAlign ∣ (layout.gemm.operand operand).rowBytes)
    (hstraight : layout.plan.commonTiles = 1 ∨ addressAlign ∣ layout.plan.lhs.segment) : layout.Aligned := by
  have hsegment (operand : Operand) : addressAlign ∣ (layout.plan.operand operand).segment := by
    rcases hstraight with hone | hsegment
    · have hrow := hcuts.commonTiles_mul_segment operand
      rw [hone, Nat.one_mul] at hrow
      exact hrow ▸ hrows operand
    · exact hcuts.segment_eq operand ▸ hsegment
  constructor
  case operand => exact fun operand => (hlodged.operand operand).1
  case result => exact Nat.dvd_trans (by decide) hlodged.result.1
  case segment => exact fun operand => Nat.dvd_trans (by decide) (hsegment operand)
  case common => exact .inr hsegment
  case rows => exact fun operand => .inr (Nat.dvd_mul_left_of_dvd (hrows operand) _)
  case planes => exact fun operand => .inr (Nat.dvd_mul_left_of_dvd (hrows operand) _)

/-- A schedule of aligned rows is turned down exactly if there is a second tile along the common dimension that does
not begin at an aligned address. -/
theorem schedule_refused_iff (hplan : TilePlan.ofGemm layout.geometry layout.gemm = .ok layout.plan)
    (hlodged : layout.Lodged) (hrows : ∀ operand, addressAlign ∣ (layout.gemm.operand operand).rowBytes)
    {start : Residency} (hunknown : start.tiles = .both (.both none)) (hroom : start.Room 4) :
    (∃ reason, layout.schedule start = .error (.refused reason)) ↔
      1 < layout.plan.commonTiles ∧ ¬ addressAlign ∣ layout.plan.lhs.segment := by
  have hcuts := TilePlan.ofGemm_cuts hplan
  constructor
  · rintro ⟨reason, hrefused⟩
    by_contra hstraight
    have haligned := hlodged.aligned hcuts hrows (by
      have hcommon := hcuts.commonTiles_pos
      by_cases hsegment : addressAlign ∣ layout.plan.lhs.segment
      · exact .inr hsegment
      · exact .inl (by_contra fun hne => hstraight ⟨by omega, hsegment⟩))
    have hexcused := schedule_excused hcuts start _ hrefused
    cases reason with
    | unsupportedShape defect => exact hexcused haligned
    | _ => exact hexcused
  · rintro ⟨hmany, hslanted⟩
    obtain ⟨failure, hfailure, reason, rfl⟩ :=
      schedule_turned_down hplan hlodged hmany hunknown hroom hslanted
    exact ⟨reason, hfailure⟩

end Layout

/-- Padding for an array comes through if the padded dimensions fit their words, with a shape that the array accepts and
that is padded no more than needed. Once such a shape is cut and placed, it is a matter of segments alone whether it can
be scheduled with nothing on chip: it is turned down exactly if there are several tiles along the common dimension and
segments are not aligned, and nothing else stops it as long as what it counts fits its words. -/
theorem padded_schedules {geometry : Geometry} {request : Gemm.Request} (harray : geometry.check = .ok ())
    (hproper : request.Proper) (hfits : request.Fits geometry) :
    ∃ gemm, Gemm.forGeometry geometry request = .ok gemm ∧ gemm.check geometry = .ok () ∧
      (∀ operand, (gemm.operand operand).Pads geometry request operand) ∧
      ∀ layout : Layout, layout.geometry = geometry → layout.gemm = gemm →
        TilePlan.ofGemm geometry gemm = .ok layout.plan → layout.Lodged →
        ∃ segment, (∀ operand, (layout.plan.operand operand).segmentBytes = .ok segment) ∧
          ∀ start, start.tiles = .both (.both none) → start.Room 4 →
            ((∃ reason, layout.schedule start = .error (.refused reason)) ↔
              1 < layout.plan.commonTiles ∧ ¬ addressAlign ∣ segment) ∧
            (layout.CountsBytes start → ((∃ failure, layout.schedule start = .error failure) ↔
              1 < layout.plan.commonTiles ∧ ¬ addressAlign ∣ segment)) := by
  have hchecked := Geometry.checked harray
  obtain ⟨gemm, hgemm, hpads⟩ := Gemm.forGeometry_total hchecked hproper hfits
  refine ⟨gemm, hgemm, Gemm.check_of_pads hpads hchecked hproper, hpads, ?_⟩
  rintro layout rfl rfl hplan hlodged
  have hcuts := TilePlan.ofGemm_cuts hplan
  refine ⟨layout.plan.lhs.segment, fun operand => hcuts.segment_eq operand ▸ hcuts.segmentBytes_eq operand, ?_⟩
  intro start hunknown hroom
  have hrefused := Layout.schedule_refused_iff hplan hlodged (fun operand => (hpads operand).rowBytes) hunknown hroom
  refine ⟨hrefused, fun hcounts => ⟨?_, fun hslanted => ?_⟩⟩
  · rintro ⟨failure, hfailure⟩
    obtain ⟨reason, rfl⟩ := Layout.schedule_refuses hplan hlodged hcounts failure hfailure
    exact hrefused.mp ⟨reason, hfailure⟩
  · obtain ⟨reason, hreason⟩ := hrefused.mpr hslanted
    exact ⟨_, hreason⟩

/-- A padded product whose segments are of twenty-four bytes, eight to a row. -/
def slantedLayout : Layout where
  geometry := { tiledLayout.geometry with lhsEntries := 6, rhsEntries := 6 }
  gemm := ⟨⟨3, 4, 1536, 1536, 1, false⟩, ⟨5, 6, 1536, 1536, 1, false⟩⟩
  plan := {
    lhs := ⟨2, 16, 3, 3, 48, 1, 48, 2, 2, 16, .hardware⟩
    rhs := ⟨2, 16, 3, 3, 48, 1, 48, 2, 3, 24, .hardware⟩
    stripes := 24
    bandStripes := 3
    commonTiles := 8 }
  addresses := ⟨0x10000000, 0x10000400, 0x10000900⟩

theorem slantedLayout_plan : TilePlan.ofGemm slantedLayout.geometry slantedLayout.gemm = .ok slantedLayout.plan :=
  toOption_eq_some_iff.mp (by decide +kernel)

theorem tiledLayout_lodged : tiledLayout.Lodged := by
  refine ⟨?_, by decide, 96, toOption_eq_some_iff.mp (by decide +kernel), by decide⟩
  rintro (_ | _)
  · exact ⟨by decide, 1024, toOption_eq_some_iff.mp (by decide +kernel), by decide⟩
  · exact ⟨by decide, 768, toOption_eq_some_iff.mp (by decide +kernel), by decide⟩

theorem slantedLayout_lodged : slantedLayout.Lodged := by
  refine ⟨?_, by decide, 96, toOption_eq_some_iff.mp (by decide +kernel), by decide⟩
  rintro (_ | _)
  · exact ⟨by decide, 768, toOption_eq_some_iff.mp (by decide +kernel), by decide⟩
  · exact ⟨by decide, 1152, toOption_eq_some_iff.mp (by decide +kernel), by decide⟩

/-- The tiled product is a padded one with segments of sixty-four bytes, which are aligned, so it is scheduled. The
slanted one is turned down. -/
theorem padded_schedules_tiled :
    (∃ written, tiledLayout.schedule .fresh = .ok written) ∧
      ∃ reason, slantedLayout.schedule .fresh = .error (.refused reason) := by
  have hroom : Residency.fresh.Room 4 := ⟨by decide, by decide⟩
  constructor
  · have hproper : Gemm.Request.Proper ⟨3, 1000, 5, 2, 1, true, false⟩ :=
      ⟨by rintro (_ | _) <;> decide, by decide, by rintro (_ | _) <;> decide⟩
    have hfits : Gemm.Request.Fits ⟨3, 1000, 5, 2, 1, true, false⟩ tiledLayout.geometry := by
      refine ⟨?_, 1024, ⟨by decide, by decide, by decide⟩, by decide⟩
      rintro (_ | _)
      · exact ⟨4, ⟨by decide, by decide⟩, by decide⟩
      · exact ⟨6, ⟨by decide, by decide⟩, by decide⟩
    obtain ⟨gemm, hgemm, -, -, hlayouts⟩ :=
      padded_schedules (toOption_eq_some_iff.mp (by decide +kernel)) hproper hfits
    have hsame : some gemm = some tiledLayout.gemm :=
      (toOption_eq_some_iff.mpr hgemm).symm.trans (by decide +kernel)
    obtain rfl := Option.some.inj hsame
    obtain ⟨segment, hsegment, hschedules⟩ := hlayouts tiledLayout rfl rfl tiledLayout_plan tiledLayout_lodged
    obtain rfl : segment = 64 := Except.ok.inj ((hsegment .lhs).symm.trans (by decide))
    have hfails := (hschedules .fresh rfl hroom).2 ⟨⟨by decide, by decide⟩, by decide⟩
    cases hschedule : tiledLayout.schedule .fresh with
    | ok written => exact ⟨written, rfl⟩
    | error failure => exact absurd (hfails.mp ⟨failure, hschedule⟩).2 (by decide)
  · have hproper : Gemm.Request.Proper ⟨3, 1536, 5, 1, 1, false, false⟩ :=
      ⟨by rintro (_ | _) <;> decide, by decide, by rintro (_ | _) <;> decide⟩
    have hfits : Gemm.Request.Fits ⟨3, 1536, 5, 1, 1, false, false⟩ slantedLayout.geometry := by
      refine ⟨?_, 1536, ⟨by decide, by decide, by decide⟩, by decide⟩
      rintro (_ | _)
      · exact ⟨4, ⟨by decide, by decide⟩, by decide⟩
      · exact ⟨6, ⟨by decide, by decide⟩, by decide⟩
    obtain ⟨gemm, hgemm, -, -, hlayouts⟩ :=
      padded_schedules (toOption_eq_some_iff.mp (by decide +kernel)) hproper hfits
    have hsame : some gemm = some slantedLayout.gemm :=
      (toOption_eq_some_iff.mpr hgemm).symm.trans (by decide +kernel)
    obtain rfl := Option.some.inj hsame
    obtain ⟨segment, hsegment, hschedules⟩ := hlayouts slantedLayout rfl rfl slantedLayout_plan slantedLayout_lodged
    obtain rfl : segment = 24 := Except.ok.inj ((hsegment .lhs).symm.trans (by decide))
    exact (hschedules .fresh rfl hroom).1.mpr ⟨by decide, by decide⟩

end BitSerial
