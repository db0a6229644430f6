import SpriteBytecode.CommandList.Program
import SpriteBytecode.Log
import SpriteBytecode.Playback.Config
import SpriteBytecode.Timing.Walk

/-!
The report of a timing walk. A survey walks without keeping the visits: of each it notes that the
command was passed, and its annotation. It reports what the walk itself would
(`analyzeTiming_eq_ofWalk`).
-/

set_option autoImplicit false
set_option relaxedAutoImplicit false

namespace SpriteBytecode

structure TimingReport where
  /-- Start times by list index. -/
  times : List (Option Nat)
  /-- Elapsed time when the walk stopped. -/
  total : Nat
  termination : Termination
  deriving DecidableEq

namespace TimingReport

def ofWalk (list : CommandList) (walk : Walk) : TimingReport :=
  ⟨Timing.annotations list walk.visits, walk.total, walk.termination⟩

def timeOf? (report : TimingReport) (index : Nat) : Option Nat := report.times[index]?.join

def log (report : TimingReport) : List Log.Entry :=
  [⟨.debug, "Timing walk over " ++ toString report.times.length ++ " commands stopped ("
    ++ report.termination.name ++ ") at " ++ toString report.total⟩]

end TimingReport

namespace Timing

@[inline] def noteTime (program : Program) (command : Command) (visit : Visit)
    (times : Array (Option Nat)) : Array (Option Nat) :=
  if annotates program.findLabel? command then
    times.setIfInBounds visit.position (some visit.time)
  else times

/-- Walks on from `here`. `count` is the number of visits so far, `passed` tells the commands that
were visited, and `times` holds the annotations. Counting up keeps the count small when the cap is
not. -/
def surveyFrom (program : Program) (cap count : Nat) (here : Visit) (passed : Array Bool)
    (times : Array (Option Nat)) : TimingReport :=
  match program.get? here.position with
  | none => ⟨times.toList, here.time, .endOfList⟩
  | some command =>
    if count < cap then
      if here.repeats.isNone && passed[here.position]?.getD false then
        ⟨times.toList, here.time, .steadyState⟩
      else
        match follow program.findLabel? command here with
        | none => ⟨(noteTime program command here times).toList, here.time, .missingLabel⟩
        | some there =>
          surveyFrom program cap (count + 1) there (passed.setIfInBounds here.position true)
            (noteTime program command here times)
    else ⟨times.toList, here.time, .iterationCap⟩
  termination_by cap - count

def survey (program : Program) (cap : Nat) : TimingReport :=
  let size := program.list.length
  if size = 0 then ⟨[], 0, .empty⟩
  else surveyFrom program cap 0 start (Array.replicate size false) (Array.replicate size none)

/-- What a survey has kept agrees with the visits so far, the last one first. -/
structure Keeps (list : CommandList) (visited : List Visit) (passed : Array Bool)
    (times : Array (Option Nat)) : Prop where
  passed : ∀ index < list.length,
    passed[index]? = some (visited.any (·.position == index))
  times : times.toList = annotations list visited.reverse

theorem keeps_nil (list : CommandList) :
    Keeps list [] (Array.replicate list.length false) (Array.replicate list.length none) where
  passed index h := by simp [h]
  times := by simp [annotations]

theorem findLabel?_eq_list (program : Program) : program.findLabel? = program.list.findLabel? :=
  funext program.findLabel?_eq

theorem Keeps.visit {program : Program} {visited : List Visit} {passed : Array Bool}
    {times : Array (Option Nat)} (h : Keeps program.list visited passed times) {here : Visit}
    {command : Command} (hc : program.list.get? here.position = some command) :
    Keeps program.list (here :: visited) (passed.setIfInBounds here.position true)
      (noteTime program command here times) where
  passed index hi := by
    have hold := h.passed index hi
    have hsize : index < passed.size := (Array.getElem?_eq_some_iff.mp hold).1
    rw [Array.getElem?_setIfInBounds, List.any_cons]
    by_cases heq : here.position = index
    · rw [if_pos heq, if_pos (heq ▸ hsize), heq, beq_self_eq_true, Bool.true_or]
    · rw [if_neg heq, hold, beq_eq_false_iff_ne.mpr heq, Bool.false_or]
  times := by
    have hann : isAnnotated program.list here = annotates program.findLabel? command := by
      simp [isAnnotated, hc, findLabel?_eq_list]
    rw [List.reverse_cons, annotations_concat, hann, noteTime, ← h.times]
    split <;> simp

theorem lt_length_of_get? {list : CommandList} {index : Nat} {command : Command}
    (h : list.get? index = some command) : index < list.length :=
  (List.getElem?_eq_some_iff.mp h).1

theorem surveyFrom_eq_ofWalk (program : Program) {cap count left : Nat}
    (hcap : cap = count + left) (here : Visit) (visited : List Visit) (passed : Array Bool)
    (times : Array (Option Nat)) (h : Keeps program.list visited passed times) :
    surveyFrom program cap count here passed times =
      .ofWalk program.list (walkFrom program.list left here visited) := by
  induction left generalizing count here visited passed times with
  | zero =>
    have hleft : ¬ count < cap := by omega
    unfold surveyFrom walkFrom
    rw [program.get?_eq]
    cases program.list.get? here.position <;> simp [TimingReport.ofWalk, h.times, hleft]
  | succ left ih =>
    have hleft : count < cap := by omega
    have hnext : cap = count + 1 + left := by omega
    unfold surveyFrom walkFrom
    rw [program.get?_eq, findLabel?_eq_list]
    cases hc : program.list.get? here.position with
    | none => simp [TimingReport.ofWalk, h.times]
    | some command =>
      have hk := h.visit hc
      simp only [hleft, if_true, h.passed here.position (lt_length_of_get? hc), Option.getD_some]
      split
      · simp [TimingReport.ofWalk, h.times]
      · cases follow program.list.findLabel? command here with
        | none => simp [TimingReport.ofWalk, hk.times]
        | some there => exact ih hnext _ _ _ _ hk

theorem survey_eq_ofWalk (program : Program) (cap : Nat) :
    survey program cap = .ofWalk program.list (walk program.list cap) := by
  unfold survey walk
  by_cases h : program.list.commands = []
  · simp [h, CommandList.length, TimingReport.ofWalk, annotations]
  · have hlen : ¬ program.list.length = 0 := by simpa [CommandList.length] using h
    have hemp : program.list.commands.isEmpty = false := by simpa using h
    simp only [hlen, if_false, hemp, Bool.false_eq_true]
    exact surveyFrom_eq_ofWalk _ (Nat.zero_add _).symm _ _ _ _ (keeps_nil _)

end Timing

def analyzeTiming (list : CommandList) (config : TimingConfig) : TimingReport :=
  Timing.survey list.program config.maxIterations

theorem analyzeTiming_eq_ofWalk (list : CommandList) (config : TimingConfig) :
    analyzeTiming list config = .ofWalk list (Timing.walk list config.maxIterations) :=
  Timing.survey_eq_ofWalk list.program config.maxIterations

end SpriteBytecode
