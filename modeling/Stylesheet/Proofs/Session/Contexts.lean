import Stylesheet.Proofs.Fallible
import Stylesheet.Session

/-!
# Contexts bring back what they replaced

Which step leaves which context is a matter of counting: a leave belongs to the last step that
opened a context and of which all contexts opened since have been left. The options in force after
the leave are those that were in force just before that step, whatever was set, reset, refused or
nested in between. In a session that begins without open contexts, every leave that succeeds
belongs to some step.
-/

namespace Stylesheet
namespace Session

/-! ## Counting contexts -/

namespace Step

/-- Whether a step opens a context. Settings that cannot be applied open none. -/
def opens : Step → Bool
  | enter settings =>
      match TokenizeOptions.ofPairs settings with
      | .ok _ => true
      | .error _ => false
  | _ => false

def leaves : Step → Bool
  | leave => true
  | _ => false

theorem eq_leave_of_leaves {step : Step} (leaves : step.leaves = true) : step = .leave := by
  cases step with
  | leave => rfl
  | _ => cases leaves

theorem exists_of_opens {step : Step} (opens : step.opens = true) :
    ∃ settings, step = .enter settings := by
  cases step with
  | enter settings => exact ⟨settings, rfl⟩
  | _ => cases opens

/-- How many contexts are open behind a step that finds `depth` open ones. There is no such number
if it leaves a context where none is open. -/
def depth? (depth : Nat) (step : Step) : Option Nat :=
  if step.opens then some (depth + 1)
  else if step.leaves then
    if depth = 0 then none else some (depth - 1)
  else some depth

end Step

def depthBehind? (depth : Nat) (steps : List Step) : Option Nat :=
  steps.foldlM Step.depth? depth

/-- All contexts that are opened by some steps are left by them, and no others. -/
def IsClosed (steps : List Step) : Prop :=
  depthBehind? 0 steps = some 0

instance (steps : List Step) : Decidable (IsClosed steps) :=
  inferInstanceAs (Decidable (depthBehind? 0 steps = some 0))

theorem depthBehind?_append (depth : Nat) (front back : List Step) :
    depthBehind? depth (front ++ back) = (depthBehind? depth front).bind (depthBehind? · back) :=
  List.foldlM_append

theorem depthBehind?_cons (depth : Nat) (step : Step) (steps : List Step) :
    depthBehind? depth (step :: steps) = (step.depth? depth).bind (depthBehind? · steps) :=
  List.foldlM_cons

/-- Contexts that were open before and are not left make no difference. -/
theorem depthBehind?_add {depth behind : Nat} (more : Nat) {steps : List Step}
    (counted : depthBehind? depth steps = some behind) :
    depthBehind? (depth + more) steps = some (behind + more) := by
  induction steps generalizing depth with
  | nil =>
      cases counted
      rfl
  | cons step steps induction =>
      rw [depthBehind?_cons, Option.bind_eq_some_iff] at counted
      obtain ⟨next, one, others⟩ := counted
      have shifted : step.depth? (depth + more) = some (next + more) := by
        unfold Step.depth? at one ⊢
        grind
      rw [depthBehind?_cons, shifted]
      exact induction others

theorem IsClosed.append {front back : List Step} (closed : IsClosed front)
    (closedBack : IsClosed back) : IsClosed (front ++ back) := by
  rw [IsClosed, depthBehind?_append, closed]
  exact closedBack

/-- A context with closed contents is closed. -/
theorem IsClosed.context {step : Step} {inner : List Step} (opens : step.opens = true)
    (closed : IsClosed inner) : IsClosed (step :: (inner ++ [.leave])) := by
  have within : depthBehind? 1 inner = some 1 := depthBehind?_add 1 closed
  have begins : step.depth? 0 = some 1 := if_pos opens
  rw [IsClosed, depthBehind?_cons, begins, Option.bind_some, depthBehind?_append, within]
  rfl

/-! ## What a step does -/

/-- The session after some steps. -/
def after (session : Session) (steps : List Step) : Session :=
  steps.foldl (fun session step => (session.stepOrStay step).1) session

theorem after_append (session : Session) (front back : List Step) :
    session.after (front ++ back) = (session.after front).after back :=
  List.foldl_append ..

theorem run_append (session : Session) (front back : List Step) :
    session.run (front ++ back) = session.run front ++ (session.after front).run back := by
  induction front generalizing session with
  | nil => rfl
  | cons step front induction =>
      exact congrArg ((session.stepOrStay step).2 :: ·) (induction (session.stepOrStay step).1)

theorem length_run (session : Session) (steps : List Step) :
    (session.run steps).length = steps.length := by
  induction steps generalizing session with
  | nil => rfl
  | cons step steps induction => exact congrArg (· + 1) (induction (session.stepOrStay step).1)

/-- What a step does to the contexts: it opens one, leaves the innermost one, or lets all of them
be. -/
inductive Shifts (session : Session) (step : Step) (next : Session) : Prop
  | opened (opens : step.opens = true)
      (replaced : next.replaced = session.current :: session.replaced)
  | left (previous : TokenizeOptions) (leaves : step = .leave)
      (replaced : session.replaced = previous :: next.replaced)
  | kept (opens : step.opens = false) (leaves : step = .leave → session.replaced = [])
      (replaced : next.replaced = session.replaced)

/-- A step keeps the contexts if it keeps them whenever it succeeds. -/
theorem replaced_stepOrStay {session : Session} {step : Step}
    (keeps : Gives (fun result => result.1.replaced = session.replaced) (session.step step)) :
    (session.stepOrStay step).1.replaced = session.replaced := by
  unfold stepOrStay
  cases taken : session.step step with
  | ok result => exact keeps result taken
  | error failure => rfl

theorem shifts_stepOrStay (session : Session) (step : Step) :
    session.Shifts step (session.stepOrStay step).1 := by
  cases step with
  | enter settings =>
      cases made : TokenizeOptions.ofPairs settings with
      | ok options =>
          refine .opened (by simp only [Step.opens, made]) ?_
          simp only [stepOrStay, Session.step, optionsOf, made]
          rfl
      | error fault =>
          refine .kept (by simp only [Step.opens, made]) nofun ?_
          simp only [stepOrStay, Session.step, optionsOf, made]
          rfl
  | leave =>
      cases open_ : session.replaced with
      | nil =>
          refine .kept rfl (fun _ => open_) ?_
          simp only [stepOrStay, Session.step, open_]
      | cons previous outer =>
          refine .left previous rfl ?_
          simp only [stepOrStay, Session.step, open_]
          rfl
  | currentOptions => exact .kept rfl nofun rfl
  | setOptions settings =>
      exact .kept rfl nofun (replaced_stepOrStay (.bind _ fun _ => gives_ok rfl))
  | resetOptions => exact .kept rfl nofun rfl
  | create name base settings =>
      refine .kept rfl nofun (replaced_stepOrStay ?_)
      cases base with
      | none => exact .bind _ fun _ => .bind _ fun _ => gives_ok rfl
      | some base => exact .bind _ fun _ => .bind _ fun _ => gives_ok rfl
  | read name form source =>
      exact .kept rfl nofun (replaced_stepOrStay (.bind _ fun _ => gives_ok rfl))
  | readOnce form source settings =>
      exact .kept rfl nofun (replaced_stepOrStay (.bind _ fun _ => gives_ok rfl))
  | diagnostics name =>
      exact .kept rfl nofun (replaced_stepOrStay (.bind _ fun _ => gives_ok rfl))
  | tokenizerOptions name =>
      exact .kept rfl nofun (replaced_stepOrStay (.bind _ fun _ => gives_ok rfl))
  | raise name =>
      refine .kept rfl nofun (replaced_stepOrStay (.bind _ fun tokenizer => ?_))
      cases tokenizer.diagnostics with
      | nil => exact gives_ok rfl
      | cons first others => exact nofun

/-- Leaving a context puts the options in force that the context replaced. -/
theorem stepOrStay_leave {session : Session} {previous : TokenizeOptions}
    {outer : List TokenizeOptions} (replaced : session.replaced = previous :: outer) :
    session.stepOrStay .leave =
      ({ session with current := previous, replaced := outer }, .ok (.options previous)) := by
  simp only [stepOrStay, step, replaced]
  rfl

/-! ## Steps in a row -/

/-- One step moves the innermost contexts as they are counted, and leaves the outer ones alone. -/
theorem replaced_of_depth? {session next : Session} {step : Step} {top outer : List TokenizeOptions}
    (shifts : session.Shifts step next) (stack : session.replaced = top ++ outer) {depth : Nat}
    (counted : step.depth? top.length = some depth) :
    ∃ rest, next.replaced = rest ++ outer ∧ rest.length = depth := by
  cases shifts with
  | opened opens replaced =>
      rw [Step.depth?, if_pos opens, Option.some.injEq] at counted
      exact ⟨session.current :: top, by rw [replaced, stack]; rfl, counted⟩
  | left previous leaves replaced =>
      subst leaves
      cases top with
      | nil => cases counted
      | cons inner top =>
          rw [stack, List.cons_append] at replaced
          injection replaced with same others
          exact ⟨top, others.symm, by simpa [Step.depth?, Step.opens, Step.leaves] using counted⟩
  | kept opens leaves replaced =>
      refine ⟨top, by rw [replaced, stack], ?_⟩
      rw [Step.depth?, opens, if_neg Bool.false_ne_true] at counted
      split at counted
      next isLeave =>
        have none_ : top = [] := by
          have empty := leaves (Step.eq_leave_of_leaves isLeave)
          rw [stack] at empty
          exact (List.append_eq_nil_iff.mp empty).1
        rw [none_, List.length_nil, if_pos rfl] at counted
        cases counted
      next => exact Option.some.inj counted

theorem replaced_of_depthBehind? {session : Session} {steps : List Step}
    {top outer : List TokenizeOptions} (stack : session.replaced = top ++ outer) {depth : Nat}
    (counted : depthBehind? top.length steps = some depth) :
    ∃ rest, (session.after steps).replaced = rest ++ outer ∧ rest.length = depth := by
  induction steps generalizing session top with
  | nil =>
      cases counted
      exact ⟨top, stack, rfl⟩
  | cons step steps induction =>
      rw [depthBehind?_cons, Option.bind_eq_some_iff] at counted
      obtain ⟨next, one, others⟩ := counted
      obtain ⟨rest, stackNext, rfl⟩ :=
        replaced_of_depth? (shifts_stepOrStay session step) stack one
      exact induction stackNext others

/-- Closed steps leave the contexts as they found them. -/
theorem replaced_of_isClosed (session : Session) {steps : List Step} (closed : IsClosed steps) :
    (session.after steps).replaced = session.replaced := by
  obtain ⟨rest, stack, size⟩ :=
    @replaced_of_depthBehind? session steps [] session.replaced rfl 0 closed
  rw [stack, List.eq_nil_of_length_eq_zero size, List.nil_append]

/-- Behind an open context whose contents are closed, that context is the innermost one. -/
theorem replaced_behind_open (start : Session) {before inner : List Step} {step : Step}
    (opens : step.opens = true) (closed : IsClosed inner) :
    (start.after (before ++ step :: inner)).replaced =
      (start.after before).current :: (start.after before).replaced := by
  rw [after_append]
  have inside := replaced_of_isClosed ((start.after before).stepOrStay step).1 closed
  refine inside.trans ?_
  cases shifts_stepOrStay (start.after before) step with
  | opened _ replaced => exact replaced
  | left previous leaves _ =>
      subst leaves
      cases opens
  | kept closes _ _ =>
      rw [opens] at closes
      cases closes

/-- Each of the open contexts was opened by some step, and all contexts that were opened behind
that step and outside of the context are left. -/
theorem exists_opening {start : Session} (fresh : start.replaced = []) (steps : List Step)
    {previous : TokenizeOptions} {outer : List TokenizeOptions}
    (stack : (start.after steps).replaced = previous :: outer) :
    ∃ before step inner, steps = before ++ step :: inner ∧ step.opens = true ∧ IsClosed inner ∧
      (start.after before).replaced = outer := by
  induction size : steps.length using Nat.strongRecOn generalizing steps previous outer with
  | ind _ induction =>
      subst size
      rcases List.eq_nil_or_concat steps with rfl | ⟨front, step, rfl⟩
      · rw [show start.after [] = start from rfl, fresh] at stack
        cases stack
      simp only [List.concat_eq_append, after_append] at stack induction ⊢
      cases shifts_stepOrStay (start.after front) step with
      | opened opens replaced =>
          have same := replaced.symm.trans stack
          injection same with _ same
          exact ⟨front, step, [], rfl, opens, rfl, same⟩
      | left inside leaves replaced =>
          -- The context that is left lies inside of the one that is asked for.
          subst leaves
          obtain ⟨between, opening, inner, rfl, opens, closed, outside⟩ :=
            induction front.length (by simp) front (replaced.trans (congrArg _ stack)) rfl
          obtain ⟨before, first, others, rfl, firstOpens, firstClosed, rest⟩ :=
            induction between.length (by simp) between outside rfl
          exact ⟨before, first, others ++ opening :: (inner ++ [.leave]), by simp, firstOpens,
            firstClosed.append (closed.context opens), rest⟩
      | kept closes leaves replaced =>
          have inside := replaced.symm.trans stack
          obtain ⟨before, first, inner, rfl, opens, closed, rest⟩ :=
            induction front.length (by simp) front inside rfl
          have stays : step.leaves = false := by
            rw [← Bool.not_eq_true]
            intro isLeave
            rw [leaves (Step.eq_leave_of_leaves isLeave)] at inside
            cases inside
          have quiet : IsClosed [step] := by
            simp [IsClosed, depthBehind?, Step.depth?, closes, stays]
          exact ⟨before, first, inner ++ [step], by simp, opens, closed.append quiet, rest⟩

/-! ## What is brought back -/

/-- A leave that belongs to the opening of a context succeeds. It puts the options in force that
were in force just before the opening, and answers with them. If no context was open at the start,
no other leave succeeds. -/
theorem leave_restores (start : Session) :
    (∀ before settings inner behind, (Step.enter settings).opens = true → IsClosed inner →
      let steps := before ++ .enter settings :: inner
      (start.after (steps ++ [.leave])).current = (start.after before).current ∧
        (start.run (steps ++ .leave :: behind))[steps.length]? =
          some (.ok (.options (start.after before).current))) ∧
    (start.replaced = [] → ∀ steps answer,
      (start.run (steps ++ [.leave]))[steps.length]? = some (.ok answer) →
      ∃ before settings inner, steps = before ++ .enter settings :: inner ∧
        (Step.enter settings).opens = true ∧ IsClosed inner) := by
  have answered (steps behind : List Step) :
      (start.run (steps ++ .leave :: behind))[steps.length]? =
        some ((start.after steps).stepOrStay .leave).2 := by
    rw [run_append, List.getElem?_append_right (Nat.le_of_eq (length_run ..)), length_run,
      Nat.sub_self]
    rfl
  constructor
  · intro before settings inner behind opens closed steps
    have left : (start.after steps).stepOrStay .leave = _ :=
      stepOrStay_leave (replaced_behind_open start opens closed)
    constructor
    · rw [after_append]
      exact congrArg (·.1.current) left
    · rw [answered, left]
  · intro fresh steps answer succeeds
    rw [answered, Option.some.injEq] at succeeds
    cases stack : (start.after steps).replaced with
    | nil =>
        simp only [stepOrStay, step, stack] at succeeds
        cases succeeds
    | cons previous outer =>
        obtain ⟨before, first, inner, split, opens, closed, -⟩ := exists_opening fresh steps stack
        obtain ⟨settings, rfl⟩ := Step.exists_of_opens opens
        exact ⟨before, settings, inner, split, opens, closed⟩

/-- Settings that cannot be applied, a reset, a context inside of the context, and a leave behind
it that belongs to no step. -/
theorem leave_restores_nested :
    let less : Settings := [("lessSyntax".toList, .boolean true)]
    let refused : Settings := [("rule_modifiers".toList, .null)]
    let before : List Step := [.setOptions less, .enter refused]
    let inner : List Step :=
      [.resetOptions, .enter [], .setOptions less, .setOptions refused, .leave, .enter refused,
        .setOptions [("ruleModifiers".toList, .string "ab".toList)]]
    let steps := before ++ .enter [("splitRules".toList, .boolean false)] :: inner
    (Step.enter [("splitRules".toList, .boolean false)]).opens = true ∧ IsClosed inner ∧
      (after {} (steps ++ [.leave])).current = { lessSyntax := true } ∧
      (run {} (steps ++ [.leave, .leave]))[steps.length]? =
        some (.ok (.options { lessSyntax := true })) := by
  refine ⟨by decide, by decide, ?_⟩
  exact (leave_restores {}).1 _ _ _ [.leave] (by decide) (by decide)

end Session
end Stylesheet
