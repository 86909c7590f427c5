import Px4.Common.Run
import Px4.HealthAndArmingChecks.Report

/-!
# What the ground learns of the results

Changes are found between one cycle and the next, not against what was sent. A change inside the
reporting interval is only remembered, and the results may change back before they are sent.
-/

namespace Px4.HealthAndArmingChecks

open Commander (HrtAbstime)

/-! ## The comparison of results -/

theorem HealthResults.differ_iff (a b : HealthResults) : a.differ b ↔ a ≠ b := by
  cases a
  cases b
  simp only [HealthResults.differ, Bool.or_eq_true, bne_iff_ne, ne_eq, HealthResults.mk.injEq,
    not_and_or, or_assoc]

theorem ArmingCheckResults.differ_iff (a b : ArmingCheckResults) : a.differ b ↔ a ≠ b := by
  cases a
  cases b
  simp only [ArmingCheckResults.differ, Bool.or_eq_true, bne_iff_ne, ne_eq,
    ArmingCheckResults.mk.injEq, not_and_or, or_assoc]

theorem Results.differ_iff (a b : Results) : a.differ b ↔ a ≠ b := by
  cases a
  cases b
  simp only [Results.differ, Bool.or_eq_true, HealthResults.differ_iff,
    ArmingCheckResults.differ_iff, bne_iff_ne, ne_eq, Results.mk.injEq, not_and_or, or_assoc]

namespace Report

variable {r r' : Report}

/-! ## A cycle -/

/-- The checks of a cycle change the current results and the events only. -/
structure SameCycle (r r' : Report) : Prop where
  currentResult : r'.currentResult = r.currentResult
  previous : r'.results (!r.currentResult) = r.results (!r.currentResult)
  hadUnreportedDifference : r'.hadUnreportedDifference = r.hadUnreportedDifference
  lastReport : r'.lastReport = r.lastReport
  minReportingInterval : r'.minReportingInterval = r.minReportingInterval

theorem SameCycle.refl (r) : SameCycle r r := ⟨rfl, rfl, rfl, rfl, rfl⟩

variable {r'' : Report} {change : Results → Results} {c : Check}

theorem SameCycle.trans (h : SameCycle r r') (h' : SameCycle r' r'') :
    SameCycle r r'' where
  currentResult := h'.currentResult.trans h.currentResult
  previous := by
    have hprevious := h'.previous
    rw [h.currentResult] at hprevious
    exact hprevious.trans h.previous
  hadUnreportedDifference := h'.hadUnreportedDifference.trans h.hadUnreportedDifference
  lastReport := h'.lastReport.trans h.lastReport
  minReportingInterval := h'.minReportingInterval.trans h.minReportingInterval

variable (r)

theorem sameCycle_mapCurrent :
    SameCycle r (r.mapCurrent change) where
  currentResult := rfl
  previous := Function.update_of_ne (by simp) ..
  hadUnreportedDifference := rfl
  lastReport := rfl
  minReportingInterval := rfl

theorem sameCycle_addEvent {id} {logLevels} {modes}
    {arguments} : SameCycle r (r.addEvent id logLevels modes arguments) := by
  unfold addEvent
  split_ifs
  · exact ⟨rfl, rfl, rfl, rfl, rfl⟩
  · have hevents : SameCycle r { r with events := r.events ++ [⟨id, logLevels, arguments⟩] } :=
      ⟨rfl, rfl, rfl, rfl, rfl⟩
    exact hevents.trans (sameCycle_mapCurrent ..)

theorem sameCycle_check : SameCycle r (r.check c) := by
  cases c with
  | healthFailure failure =>
    exact ((sameCycle_mapCurrent ..).trans (sameCycle_mapCurrent ..)).trans (sameCycle_addEvent ..)
  | armingCheckFailure failure =>
    exact ((sameCycle_mapCurrent ..).trans (sameCycle_mapCurrent ..)).trans (sameCycle_addEvent ..)
  | setIsPresent =>
    rw [check]
    exact sameCycle_mapCurrent ..
  | setHealth =>
    rw [check]
    exact sameCycle_mapCurrent ..
  | clearArmingBits =>
    rw [check]
    exact sameCycle_mapCurrent ..
  | clearCanRunBits =>
    rw [check]
    exact sameCycle_mapCurrent ..
  | addExternalEvent => exact sameCycle_addEvent ..

theorem sameCycle_foldl (checks : List Check) (r) : SameCycle r (checks.foldl check r) := by
  induction checks generalizing r with
  | nil => exact .refl r
  | cons c checks ih => exact (sameCycle_check r).trans (ih _)

/-- What a cycle leaves for `report`. -/
structure Cycle (r r' : Report) : Prop where
  hadUnreportedDifference : r'.hadUnreportedDifference = r.hadUnreportedDifference
  lastReport : r'.lastReport = r.lastReport
  minReportingInterval : r'.minReportingInterval = r.minReportingInterval
  alreadyReported : r'.alreadyReported = false
  valid : r'.current.armingChecks.valid = true
  resultsChanged : r'.resultsChanged = true ↔ r'.current ≠ r.current

theorem sameCycle_finalize : SameCycle r r.finalize :=
  (sameCycle_mapCurrent r).trans ⟨rfl, rfl, rfl, rfl, rfl⟩

theorem resultsChanged_finalize :
    r.finalize.resultsChanged ↔
      r.finalize.current ≠ r.finalize.results (!r.finalize.currentResult) := by
  have hdiffer : r.finalize.resultsChanged ↔
      r.finalize.results false ≠ r.finalize.results true := Results.differ_iff ..
  rw [hdiffer, current]
  cases r.finalize.currentResult with
  | false => exact Iff.rfl
  | true => exact ne_comm

theorem cycle_runChecks (checks : List Check) : Cycle r (r.runChecks checks) := by
  have h := (sameCycle_foldl checks r.reset).trans (sameCycle_finalize _)
  have hprevious : (r.runChecks checks).results (!(r.runChecks checks).currentResult) =
      r.current := by
    have hcurrent : (r.runChecks checks).currentResult = !r.currentResult := h.currentResult
    have hother := h.previous
    simp only [reset, Bool.not_not] at hother
    rw [hcurrent, Bool.not_not]
    refine hother.trans (Function.update_of_ne ?_ ..)
    simp
  refine { h with alreadyReported := rfl, valid := ?_, resultsChanged := ?_ }
  · simp [runChecks, finalize, current, mapCurrent, markValid]
  · rw [← hprevious]
    exact resultsChanged_finalize _

/-! ## Reports -/

/-- What `report` may do after a cycle, or when it is forced. -/
inductive Reported (r : Report) (now : HrtAbstime) (force : Bool) :
    Report × Option Message → Prop where
  /-- The current results are sent. -/
  | sent (message : Message) (hresults : message.results = r.current) :
      Reported r now force (r.noteReport now, some message)
  /-- There is a difference, but it is too early. -/
  | early (hforce : force = false) (hearly : now < r.lastReport + r.minReportingInterval) :
      Reported r now force ({ r with hadUnreportedDifference := true }, none)
  /-- There is no difference. -/
  | same (hpending : r.hadUnreportedDifference = false) (hchanged : r.resultsChanged = false) :
      Reported r now force (r, none)

theorem reported_report (now : HrtAbstime) (force : Bool)
    (hnew : r.alreadyReported = false ∨ force) :
    Reported r now force (r.report now force) := by
  unfold report
  dsimp only
  split_ifs with hearly hdifference hneed
  · simp only [Bool.and_eq_true, decide_eq_true_eq, Bool.not_eq_true'] at hearly
    exact .early hearly.2 hearly.1
  · simp only [Bool.or_eq_true, not_or, Bool.not_eq_true] at hdifference
    exact .same hdifference.1 hdifference.2
  · exact .sent _ rfl
  · simp only [Bool.or_eq_true, Bool.and_eq_true, Bool.not_eq_true', not_or, not_and,
      Bool.not_eq_true, Bool.not_eq_false] at hneed
    obtain ⟨hdifference, hforce⟩ := hneed
    have hnot : ¬ (r.hadUnreportedDifference ∨ r.resultsChanged) := fun h => by
      rcases hnew with hnew | hnew
      · cases (hdifference h).symm.trans hnew
      · cases hforce.symm.trans hnew
    simp only [not_or, Bool.not_eq_true] at hnot
    exact .same hnot.1 hnot.2

end Report

/-! ## Runs -/

/-- The report, and what was sent last and when. -/
structure Link where
  report : Report
  sent : Option (HrtAbstime × Message) := none

/-- A cycle of `reset`, checks, `finalize` and `report`, or `reportIfUnreportedDifferences`. -/
inductive Event where
  | cycle (checks : List Report.Check) (force : Bool) (now : HrtAbstime)
  | reportIfUnreportedDifferences (now : HrtAbstime)

namespace Link

/-- Note what a call of `report` has sent. -/
def note (s : Link) (now : HrtAbstime) (reported : Report × Option Message) : Link where
  report := reported.1
  sent := (reported.2.map fun message => (now, message)).or s.sent

def step (s : Link) : Event → Link
  | .cycle checks force now => s.note now ((s.report.runChecks checks).report now force)
  | .reportIfUnreportedDifferences now =>
    s.note now (s.report.reportIfUnreportedDifferences now)

/-- The results that were sent last are the current ones. -/
def UpToDate (s : Link) : Prop :=
  ∃ now message, s.sent = some (now, message) ∧ message.results = s.report.current

/-- The reporting interval has passed since the last report or, without one, the start. -/
def Due (s : Link) (now : HrtAbstime) : Prop :=
  (s.sent.elim 0 fun sent => sent.1.toNat) + s.report.minReportingInterval.toNat ≤ now.toNat

/-- What the ground learns by an event: after a cycle the results are up to date or a difference is
remembered, and a cycle that is due, or a call that finds one remembered, makes them up to date. -/
def Learns (s : Link) : Event → Prop
  | .cycle checks force now =>
    ((s.step (.cycle checks force now)).report.hadUnreportedDifference = true ∨
      (s.step (.cycle checks force now)).UpToDate) ∧
    (s.Due now → (s.step (.cycle checks force now)).UpToDate)
  | .reportIfUnreportedDifferences now =>
    s.report.hadUnreportedDifference = true →
      (s.step (.reportIfUnreportedDifferences now)).UpToDate

/-- The invariant of runs; before the first cycle the results are not valid. -/
structure Inv (s : Link) : Prop where
  lastReport : s.report.lastReport.toNat = s.sent.elim 0 fun sent => sent.1.toNat
  informed : s.report.hadUnreportedDifference = true ∨ s.UpToDate ∨
    s.report.current.armingChecks.valid = false

variable {s : Link} {now : HrtAbstime}

variable {last interval : Commander.HrtAbstime} {message : Message} {e : Event}

theorem not_early_of_due
    (hdue : last.toNat + interval.toNat ≤ now.toNat) : ¬ now < last + interval := by
  rw [UInt64.lt_iff_toNat_lt, Nat.not_lt]
  exact (Nat.mod_le ..).trans hdue

theorem inv_sent {r : Report}
    (hresults : message.results = r.current) :
    let y := s.note now (r.noteReport now, some message)
    Inv y ∧ y.UpToDate := by
  have hdate : (s.note now (r.noteReport now, some message)).UpToDate :=
    ⟨now, message, rfl, hresults⟩
  exact ⟨⟨rfl, .inr (.inl hdate)⟩, hdate⟩

/-- After a cycle the results are up to date, or it was too early for them. -/
theorem Inv.cycle (h : Inv s) (checks : List Report.Check) (force : Bool) (now : HrtAbstime) :
    let y := s.step (.cycle checks force now)
    Inv y ∧ (y.UpToDate ∨ y.report.hadUnreportedDifference ∧ ¬ s.Due now) := by
  have hcycle := Report.cycle_runChecks s.report checks
  have hreported := Report.reported_report (s.report.runChecks checks) now force
    (.inl hcycle.alreadyReported)
  rw [step]
  generalize s.report.runChecks checks = r at hcycle hreported ⊢
  generalize r.report now force = reported at hreported ⊢
  have hlast : r.lastReport.toNat = s.sent.elim 0 fun sent => sent.1.toNat := by
    rw [hcycle.lastReport]
    exact h.lastReport
  cases hreported with
  | sent message hresults =>
    obtain ⟨hinv, hdate⟩ := inv_sent hresults
    exact ⟨hinv, .inl hdate⟩
  | early hforce hearly =>
    refine ⟨⟨hlast, .inl rfl⟩, .inr ⟨rfl, fun hdue => ?_⟩⟩
    rw [Due, ← hlast, ← hcycle.minReportingInterval] at hdue
    exact not_early_of_due hdue hearly
  | same hpending hchanged =>
    -- the results are those of the cycle before, which were sent
    have hsame : r.current = s.report.current := by
      by_contra hne
      rw [hcycle.resultsChanged.mpr hne] at hchanged
      cases hchanged
    rw [hcycle.hadUnreportedDifference] at hpending
    have hdate : UpToDate (s.note now (r, none)) := by
      rcases h.informed with hhad | ⟨t, message, hsent, hresults⟩ | hinvalid
      · cases hpending.symm.trans hhad
      · exact ⟨t, message, hsent, hresults.trans hsame.symm⟩
      · have hvalid := hcycle.valid
        rw [hsame, hinvalid] at hvalid
        cases hvalid
    exact ⟨⟨hlast, .inr (.inl hdate)⟩, .inl hdate⟩

theorem Inv.reportIfUnreportedDifferences (h : Inv s) (now : HrtAbstime) :
    let r := s.step (.reportIfUnreportedDifferences now)
    Inv r ∧ (s.report.hadUnreportedDifference → r.UpToDate) := by
  rw [step, Report.reportIfUnreportedDifferences]
  split_ifs with hhad
  · have hreported := Report.reported_report s.report now true (.inr rfl)
    generalize s.report.report now true = reported at hreported ⊢
    cases hreported with
    | sent message hresults =>
      obtain ⟨hinv, hdate⟩ := inv_sent hresults
      exact ⟨hinv, fun _ => hdate⟩
    | early hforce => cases hforce
    | same hpending => cases hpending.symm.trans hhad
  · exact ⟨⟨h.lastReport, h.informed⟩, fun h => absurd h hhad⟩

theorem Inv.step (h : Inv s) (e) : Inv (s.step e) := by
  cases e with
  | cycle checks force now => exact (h.cycle checks force now).1
  | reportIfUnreportedDifferences now => exact (h.reportIfUnreportedDifferences now).1

theorem Inv.learns (h : Inv s) : Learns s e := by
  cases e with
  | cycle checks force now =>
    rcases (h.cycle checks force now).2 with hdate | ⟨hhad, hdue⟩
    · exact ⟨.inr hdate, fun _ => hdate⟩
    · exact ⟨.inl hhad, fun h => absurd h hdue⟩
  | reportIfUnreportedDifferences now => exact (h.reportIfUnreportedDifferences now).2

/-- **The ground learns the current results.** For every reporting interval and every sequence of
cycles and calls. -/
theorem ground_learns (minReportingInterval : HrtAbstime) (es : List Event) :
    Run.Along step Learns { report := { minReportingInterval } } es := by
  apply Run.along_of_invariant (I := Inv)
  · exact fun s e h _ => h.step e
  · exact fun s e h _ => h.learns
  · exact ⟨rfl, .inr (.inr rfl)⟩
  · exact Run.along_of_forall fun _ _ => trivial

end Link

end Px4.HealthAndArmingChecks
