import Scriptlet.Proofs.Eval.Visit

/-!
Errors and signals stop evaluation at once: the construct whose part ends early ends in the same way
and in the same state, unless it is the loop that the signal is for. No part is left out of this
account, for a construct depends on nothing but the parts that evaluation comes to and the calls
that it makes.
-/

namespace Scriptlet

/-- Only the body of a loop raises signals that its construct takes, and it takes no other exits. -/
def Role.Takes : Role → Exit → Prop
  | .loopBody, .broke _ | .loopBody, .continued _ => True
  | _, _ => False

namespace Eval

variable {library : Library} {evaluate other : Evaluator} {frame : Frame} {rounds : Nat}
  {node part : Node} {state here left : State} {earlier : List Visit} {role : Role} {cause : Exit}
  {name : String} {form : BodyForm} {counting : Counting} {span site : Span}

/-! ### One construct -/

/-- Values are evaluated no further than to the first that is none. -/
theorem values_stops {before : List Node}
    (passed : (evaluate.endings frame).Passes before state earlier here)
    (ended : evaluate part frame here = .exit cause left) (after : List Node) :
    values evaluate frame (before ++ part :: after) state = .exit cause left := by
  induction passed with
  | nil => simp only [List.nil_append, values, Action.bind_apply, ended]
  | @cons node nodes state middle here value visits first rest ih =>
    have first : evaluate node frame state = .value value middle := first
    simp only [List.cons_append, values, Action.bind_apply, first, ih ended]

/-- A list is not made if one of its elements ends early. -/
theorem list_stops {before : List Node}
    (passed : (evaluate.endings frame).Passes before state earlier here)
    (ended : evaluate part frame here = .exit cause left) (after : List Node) :
    list evaluate frame (before ++ part :: after) state = .exit cause left := by
  simp [list, Action.bind_apply, values_stops passed ended after]

/-- What is to be a number is not looked at if it ends early. -/
theorem number_stops (ended : evaluate part frame here = .exit cause left) :
    number evaluate frame part here = .exit cause left := by
  simp [number, Action.bind_apply, ended]

/-- A conditional ends early where its condition or the body that it has chosen does. -/
theorem choices_stops {options : Choices}
    (tries : (evaluate.endings frame).Tries options state earlier part here)
    (ended : evaluate part frame here = .exit cause left) :
    choices evaluate frame options state = .exit cause left := by
  -- The conditions before it were false, so that evaluation is still at this part.
  induction tries with
  | condition => simp only [choices, Action.bind_apply, ended]
  | @chosen condition node form rest state here value tested holds =>
    have tested : evaluate condition frame state = .value value here := tested
    simp only [choices, body, Action.bind_apply, tested, Action.look_apply, holds, if_true, ended]
  | @next condition node part form rest state middle here value visits tested fails more ih =>
    have tested : evaluate condition frame state = .value value middle := tested
    simp [choices, Action.bind_apply, tested, fails, ih ended]
  | otherwise => simp only [choices, body, Action.bind_apply, ended]

/-- A round that ends early ends the loop, unless it is by a signal that the loop takes. -/
theorem round_stops (ended : evaluate part frame here = .exit cause left)
    (passed : ¬ Role.loopBody.Takes cause) :
    Action.round (evaluate part frame) here = .exit cause left := by
  cases cause with
  | failed error => simp [Action.round, ended]
  | returned value => simp [Action.round, ended]
  | broke site => exact (passed trivial).elim
  | continued site => exact (passed trivial).elim

/-- A round that ends by `BREAK` is the last one of the loop. -/
theorem round_broke (ended : evaluate part frame here = .exit (.broke site) left) :
    Action.round (evaluate part frame) here = .value .last left := by
  simp [Action.round, ended]

/--
A construct does not go on from a part that has ended early: it ends in the same way and in the same
state, whatever functions there are to call.
-/
theorem construct_stops (comes : (evaluate.endings frame).Visits frame node state earlier role part
      here) (ended : evaluate part frame here = .exit cause left) (passed : ¬ role.Takes cause)
    (enough : earlier.length < rounds) :
    construct library evaluate rounds node frame state = .exit cause left := by
  -- One case for each way to come to a part; the parts before it have values, so that evaluation
  -- gets as far as to this one. A loop has been unrolled as far as to the round of the part.
  cases comes with
  | item before => exact list_stops before ended _
  | statement before => exact list_stops before ended _
  | assigned => simp [construct, assign, Action.bind_apply, ended]
  | left => simp [construct, binary, Action.bind_apply, ended]
  | @right _ _ first _ _ _ value valued =>
    have valued : evaluate first frame state = .value value here := valued
    simp [construct, binary, Action.bind_apply, valued, ended]
  | operand => simp [construct, unary, Action.bind_apply, ended]
  | choice tried => exact choices_stops tried ended
  | callee => simp [construct, call, Action.bind_apply, ended]
  | @argument _ callee _ before after _ middle _ value visits called before =>
    have called : evaluate callee frame state = .value value middle := called
    simp [construct, call, Action.bind_apply, called, values_stops before ended after]
  | returned => simp [construct, returning, Action.bind_apply, ended]
  | first => simp [construct, forLoop, Action.bind_apply, number_stops ended]
  | @bound _ _ first _ _ _ _ _ _ start starts =>
    have starts : evaluate first frame state = .value (.number start) here := starts
    simp [construct, forLoop, number, Action.bind_apply, starts, ended]
  | @step _ _ first bound _ _ _ _ middle _ start limit starts limits =>
    have starts : evaluate first frame state = .value (.number start) middle := starts
    have limits : evaluate bound frame middle = .value (.number limit) here := limits
    simp [construct, forLoop, stepOf, number, Action.bind_apply, starts, limits, ended]
  | counted heads leads counts inside =>
    obtain ⟨more, same⟩ := construct_counts library _ heads leads counts enough
    have stopped := round_stops ended passed
    simp only [Frame.count] at stopped
    rw [same]
    simp only [countedRounds, inside, if_true, stopped]
  | condition repeats =>
    obtain ⟨more, same⟩ := construct_repeats library _ repeats enough
    rw [same]
    simp only [conditionalRounds, ended]
  | @repeated _ condition _ _ _ middle _ _ _ value repeats tested holds =>
    have tested : evaluate condition frame middle = .value value here := tested
    rw [List.length_append] at enough
    obtain ⟨more, same⟩ := construct_repeats library _ repeats (Nat.lt_of_add_right_lt enough)
    rw [same]
    simp only [conditionalRounds, tested, holds, if_true, round_stops ended passed]

/-- A loop whose body ends by `BREAK` ends there, with what its rounds have yielded before. -/
theorem construct_broke
    (comes : (evaluate.endings frame).Visits frame node state earlier .loopBody part here)
    (ended : evaluate part frame here = .exit (.broke site) left) :
    ∃ (form : BodyForm) (results : Array Value), ∀ library rounds, earlier.length < rounds →
      construct library evaluate rounds node frame state = form.collect results left := by
  -- What was kept before the last round does not depend on how many rounds are allowed.
  cases comes with
  | @counted _ _ _ _ _ _ form _ _ _ _ _ _ _ _ _ yields heads leads counts inside =>
    refine ⟨form, form.kept #[] yields, fun library rounds enough => ?_⟩
    obtain ⟨more, same⟩ := construct_counts library _ heads leads counts enough
    have last := round_broke ended
    simp only [Frame.count] at last
    rw [same]
    simp only [countedRounds, inside, if_true, last]
  | @repeated _ condition _ form _ middle _ _ yields value repeats tested holds =>
    refine ⟨form, form.kept #[] yields, fun library rounds enough => ?_⟩
    have tested : evaluate condition frame middle = .value value here := tested
    rw [List.length_append] at enough
    obtain ⟨more, same⟩ := construct_repeats library _ repeats (Nat.lt_of_add_right_lt enough)
    rw [same]
    simp only [conditionalRounds, tested, holds, if_true, round_broke ended]

/-! ### All that a construct depends on -/

/-- Values depend on no other constructs than those that evaluation passes through. -/
theorem values_congr {nodes : List Node} {state : State}
    (same : ∀ before part after earlier here, nodes = before ++ part :: after →
      (evaluate.endings frame).Passes before state earlier here →
      other part frame here = evaluate part frame here) :
    values other frame nodes state = values evaluate frame nodes state := by
  -- The first construct ends in the same way for both, and the rest begins where it has ended.
  induction nodes generalizing state with
  | nil => rfl
  | cons node rest ih =>
    have first := same [] node rest [] state rfl .nil
    simp only [values, Action.bind_apply, first]
    cases ended : evaluate node frame state with
    | value value middle =>
      have rest := ih fun before part after earlier here split passes =>
        same (node :: before) part after _ here (by rw [split]; rfl) (.cons ended passes)
      simp only [rest]
    | exit cause left => rfl
    | unfinished => rfl

/-- A conditional depends on no other constructs than those that it tries. -/
theorem choices_congr : (options : Choices) → {state : State} →
    (∀ earlier part here, (evaluate.endings frame).Tries options state earlier part here →
      other part frame here = evaluate part frame here) →
    choices other frame options state = choices evaluate frame options state
  | .none, _, _ => rfl
  | .otherwise node form, state, same => by
    simp only [choices, body, Action.bind_apply, same [] node state .otherwise]
  | .test condition node form rest, state, same => by
    simp only [choices, Action.bind_apply, Action.look_apply, same [] condition state .condition]
    cases tested : evaluate condition frame state with
    | value value middle =>
      simp only
      cases holds : middle.store.truth value with
      | true => simp only [body, if_true, Action.bind_apply, same _ _ _ (.chosen tested holds)]
      | false =>
        exact choices_congr rest fun earlier part here tries =>
          same _ part here (.next tested holds tries)
    | exit cause left => rfl
    | unfinished => rfl

/-- Rounds of a counted loop depend on no other runs of the body than those that they come to. -/
theorem countedRounds_congr {rounds : Nat} {counter : Number} {values : Array Value} {state : State}
    (same : ∀ counters next earlier yields here, counting.Leads counter counters next →
      (evaluate.endings frame).Counts frame name node counters state earlier yields here →
      counting.goesOn next = true → other node frame (frame.count name next here) =
        evaluate node frame (frame.count name next here)) :
    countedRounds counting (fun counter => Store.define frame.scope name (.number counter))
        (Action.round (other node frame)) form rounds counter values state =
      countedRounds counting (fun counter => Store.define frame.scope name (.number counter))
        (Action.round (evaluate node frame)) form rounds counter values state := by
  -- The first round is the same for both; what `same` says of the later ones carries over to the
  -- state that the first one leaves them.
  induction rounds generalizing counter values state with
  | zero => rfl
  | succ rounds ih =>
    simp only [countedRounds]
    cases inside : counting.goesOn counter with
    | false => rfl
    | true =>
      have first : Action.round (other node frame) (frame.count name counter state) =
          Action.round (evaluate node frame) (frame.count name counter state) := by
        simp only [Action.round, same [] counter [] [] state .start .start inside]
      simp only [Frame.count] at first
      simp only [if_true, first]
      split
      · next yielded after ended =>
        have began := round_yields_iff.mp ended
        exact ih fun counters next earlier yields here leads counts =>
          same _ next _ _ here (.next inside leads) (.round began counts)
      all_goals rfl

/-- Rounds of a conditional loop depend on no other constructs than those that they come to. -/
theorem conditionalRounds_congr {condition : Node} {rounds : Nat} {values : Array Value}
    {state : State}
    (tests : ∀ earlier yields here,
      (evaluate.endings frame).Repeats condition node state earlier yields here →
      other condition frame here = evaluate condition frame here)
    (same : ∀ earlier yields middle value here,
      (evaluate.endings frame).Repeats condition node state earlier yields middle →
      evaluate condition frame middle = .value value here → here.store.truth value = true →
      other node frame here = evaluate node frame here) :
    conditionalRounds (other condition frame) (Action.round (other node frame)) form rounds values
        state =
      conditionalRounds (evaluate condition frame) (Action.round (evaluate node frame)) form rounds
        values state := by
  -- The induction is on how many rounds there may be; a later round is reached through the first.
  induction rounds generalizing values state with
  | zero => rfl
  | succ rounds ih =>
    simp only [conditionalRounds, tests [] [] state .start]
    cases tested : evaluate condition frame state with
    | exit cause left => rfl
    | unfinished => rfl
    | value value middle =>
      simp only
      cases holds : middle.store.truth value with
      | false => rfl
      | true =>
        have first : Action.round (other node frame) middle =
            Action.round (evaluate node frame) middle := by
          simp only [Action.round, same [] [] state value middle .start tested holds]
        simp only [if_true, first]
        split
        · next yielded after ended =>
          have began := round_yields_iff.mp ended
          exact ih
            (fun earlier yields here repeats =>
              tests _ _ here (.round tested holds began repeats))
            (fun earlier yields last value here repeats =>
              same _ _ last value here (.round tested holds began repeats))
        all_goals rfl

/-- What is a number is so as a value. -/
theorem number_eq_value {number : Number}
    (valued : Eval.number evaluate frame node state = .value number here) :
    evaluate node frame state = .value (.number number) here := by
  simp only [Eval.number, Action.bind_apply] at valued
  cases ended : evaluate node frame state with
  | value value after =>
    rw [ended] at valued
    cases value with
    | number other =>
      simp only [Action.pure_apply, Outcome.value.injEq] at valued
      rw [valued.1, valued.2]
    | text text => cases valued
    | list list => cases valued
    | closure closure => cases valued
    | builtin builtin => cases valued
  | exit cause left => simp [ended] at valued
  | unfinished => simp [ended] at valued

/-- The header of a counted loop depends on its parts only, and so do the rounds after it. -/
theorem forLoop_congr {first bound : Node} {step : Option Node}
    (parts : ∀ earlier role part here, (evaluate.endings frame).Visits frame
        (.forLoop span name first bound step node form) state earlier role part here →
      other part frame here = evaluate part frame here) :
    forLoop other frame rounds name first bound step node form state =
      forLoop evaluate frame rounds name first bound step node form state := by
  -- Each number of the header is the same for both, and with it what comes next.
  have begins : number other frame first state = number evaluate frame first state := by
    simp only [number, Action.bind_apply, parts [] .plain first state .first]
  simp only [forLoop, Action.bind_apply, begins]
  cases starts : number evaluate frame first state with
  | exit cause left => rfl
  | unfinished => rfl
  | value start middle =>
    have starts := number_eq_value starts
    have bounds : number other frame bound middle = number evaluate frame bound middle := by
      simp only [number, Action.bind_apply, parts _ .plain bound middle (.bound starts)]
    simp only [bounds]
    cases limits : number evaluate frame bound middle with
    | exit cause left => rfl
    | unfinished => rfl
    | value limit later =>
      have limits := number_eq_value limits
      cases step with
      | none =>
        have heads : (evaluate.endings frame).Heads first bound none state _ start
            ⟨limit, .int 1⟩ later := .plain starts limits
        exact countedRounds_congr fun counters next earlier yields here leads counts inside =>
          parts _ .loopBody node _ (.counted heads leads counts inside)
      | some step =>
        have strides : number other frame step later = number evaluate frame step later := by
          simp only [number, Action.bind_apply, parts _ .plain step later (.step starts limits)]
        simp only [stepOf, strides]
        cases steps : number evaluate frame step later with
        | exit cause left => rfl
        | unfinished => rfl
        | value stride begun =>
          have heads : (evaluate.endings frame).Heads first bound (some step) state _ start
              ⟨limit, stride⟩ begun := .stepped starts limits (number_eq_value steps)
          exact countedRounds_congr fun counters next earlier yields here leads counts inside =>
            parts _ .loopBody node _ (.counted heads leads counts inside)

/--
A construct depends on nothing but the parts that evaluation comes to, and on the calls that it
makes: no part in its own frame is left out.
-/
theorem construct_congr
    (parts : ∀ earlier role part here,
      (evaluate.endings frame).Visits frame node state earlier role part here →
      other part frame here = evaluate part frame here)
    (calls : ∀ site callee arguments, callValue library other frame site callee arguments =
      callValue library evaluate frame site callee arguments) :
    construct library other rounds node frame state =
      construct library evaluate rounds node frame state := by
  -- One case for each construct: whatever part it evaluates is one that evaluation comes to.
  cases node with
  | int span value => rfl
  | float span value => rfl
  | text span value => rfl
  | reference span name => rfl
  | function span name parameters body form => rfl
  | continuing span => rfl
  | breaking span => rfl
  | list span items =>
    have row : values other frame items state = values evaluate frame items state :=
      values_congr fun before part after earlier here split passes => by
        subst split
        exact parts _ .plain part here (.item passes)
    simp only [construct, list, Action.bind_apply, row]
  | sequence span statements =>
    have row : values other frame statements state = values evaluate frame statements state :=
      values_congr fun before part after earlier here split passes => by
        subst split
        exact parts _ .plain part here (.statement passes)
    simp only [construct, list, Action.bind_apply, row]
  | assign span name value =>
    simp only [construct, assign, Action.bind_apply, parts [] .plain value state .assigned]
  | binary span operator left right =>
    simp only [construct, binary, Action.bind_apply, parts [] .plain left state .left]
    cases first : evaluate left frame state with
    | value value middle => simp only [parts _ .plain right middle (.right first)]
    | exit cause left => rfl
    | unfinished => rfl
  | unary span operator operand =>
    simp only [construct, unary, Action.bind_apply, parts [] .plain operand state .operand]
  | conditional span options =>
    exact choices_congr options fun earlier part here tries =>
      parts _ .plain part here (.choice tries)
  | forLoop span name first bound step node form => exact forLoop_congr parts
  | whileLoop span condition node form =>
    exact conditionalRounds_congr
      (fun earlier yields here repeats => parts _ .plain condition here (.condition repeats))
      (fun earlier yields middle value here repeats tested holds =>
        parts _ .loopBody node here (.repeated repeats tested holds))
  | call span callee arguments =>
    simp only [construct, call, Action.bind_apply, parts [] .plain callee state .callee]
    cases called : evaluate callee frame state with
    | value function middle =>
      have row : values other frame arguments middle = values evaluate frame arguments middle :=
        values_congr fun before part after earlier here split passes => by
          subst split
          exact parts _ .plain part here (.argument called passes)
      simp only [row]
      cases values evaluate frame arguments middle with
      | value row last => simp only [calls]
      | exit cause left => rfl
      | unfinished => rfl
    | exit cause left => rfl
    | unfinished => rfl
  | returning span value =>
    cases value with
    | none => rfl
    | some part =>
      simp only [construct, returning, Action.bind_apply, parts [] .plain part state .returned]

end Eval

/-! ### All reaches -/

/-- A loop ends with the values that it has kept, in a state but for the list of them. -/
def Frame.Completes (frame : Frame) (node : Node) (state left : State) : Prop :=
  ∃ (form : BodyForm) (results : Array Value), node.Ends frame state (form.collect results left)

/-- A loop goes on after some visits from a state, in which it may set its variable first. -/
def Frame.Resumes (frame : Frame) (node : Node) (state : State) (visits : List Visit)
    (left : State) : Prop :=
  ∃ role part here, frame.endings.Visits frame node state visits role part here ∧
    (here = left ∨ ∃ name counter, here = frame.count name counter left)

variable {frame : Frame} {node part : Node} {state here left : State} {earlier : List Visit}
  {role : Role} {cause : Exit} {outcome : Outcome Exit Value} {site : Span}

/-- Evaluation comes to a part, and the part ends, at some reach. -/
theorem Endings.Visits.settled
    (comes : frame.endings.Visits frame node state earlier role part here)
    (ended : part.Ends frame here outcome) :
    ∃ reach, earlier.length < reach ∧
      ((evaluate reach).endings frame).Visits frame node state earlier role part here ∧
      evaluate reach part frame here = outcome := by
  -- The reach has to be enough for the visits before, for the part and for its round.
  obtain ⟨least, granted⟩ := frame.endings_grant earlier
  obtain ⟨least', settled⟩ := ended.from_
  let reach := max (max least least') (earlier.length + 1)
  exact ⟨reach, by omega, comes.carry (granted reach (by omega)), settled reach (by omega)⟩

/-- A loop completes where its body ends by `BREAK`. -/
theorem Frame.completes_broke
    (comes : frame.endings.Visits frame node state earlier .loopBody part here)
    (ended : part.Ends frame here (.exit (.broke site) left)) :
    frame.Completes node state left := by
  obtain ⟨reach, enough, comes, ended⟩ := comes.settled ended
  obtain ⟨form, results, same⟩ := Eval.construct_broke comes ended
  exact ⟨form, results, form.collect_ne_unfinished results left, reach + 1,
    same Eval.builtin reach enough⟩

/-- A loop goes on where its body ends by `CONTINUE`, unless that was the last of its counters. -/
theorem Frame.resumes_continued
    (comes : frame.endings.Visits frame node state earlier .loopBody part here)
    (ended : part.Ends frame here (.exit (.continued site) left)) :
    frame.Completes node state left ∨
      frame.Resumes node state (earlier ++ [⟨part, here⟩]) left := by
  cases comes with
  | @counted span name first bound _ step form _ begun here visits rounds start counter counting
      counters yields heads leads counts inside =>
    -- The counter is advanced; whether the loop goes on with it decides which case it is.
    have counts := counts.snoc (.continued ended)
    have leads := leads.snoc inside
    cases onward : counting.goesOn (counter.add counting.step) with
    | true =>
      refine .inr ⟨.loopBody, part, frame.count name (counter.add counting.step) left, ?_,
        .inr ⟨_, _, rfl⟩⟩
      rw [List.append_assoc]
      exact .counted heads leads counts onward
    | false => exact .inl ⟨form, _, Node.Ends.counted heads leads counts onward⟩
  | @repeated span condition _ form _ middle _ visits yields value repeats tested holds =>
    -- The condition comes next, whether it holds or not.
    have repeats := repeats.snoc tested holds (.continued ended)
    refine .inr ⟨.plain, condition, left, ?_, .inl rfl⟩
    rw [List.append_assoc]
    exact .condition repeats

/--
Evaluation of a construct does not go on from a part in its own frame that has ended early, by an
error or by a signal: the construct ends with that very error or signal, in the state in which the
part has left everything. Nothing else is evaluated after the part, and nothing is called, for the
construct ends in the same way whatever other constructs and functions do. Only a loop whose body
ends by `BREAK` or `CONTINUE` takes that signal: it ends there with the values that it has kept, or
it goes on from there after `CONTINUE`.
-/
theorem evaluation_stops
    (comes : frame.endings.Visits frame node state earlier role part here)
    (ended : part.Ends frame here (.exit cause left)) :
    (¬ role.Takes cause →
      node.Ends frame state (.exit cause left) ∧
      ∀ (library : Library) (other : Evaluator) (rounds : Nat), earlier.length < rounds →
        (∀ visit ∈ earlier ++ [⟨part, here⟩],
          visit.node.Ends frame visit.state (other visit.node frame visit.state)) →
        Eval.construct library other rounds node frame state = .exit cause left) ∧
    (role.Takes cause → frame.Completes node state left ∨
      (∃ site, cause = .continued site) ∧
        frame.Resumes node state (earlier ++ [⟨part, here⟩]) left) := by
  refine ⟨fun passed => ⟨?_, fun library other rounds enough same => ?_⟩, fun taken => ?_⟩
  · obtain ⟨reach, enough, comes, ended⟩ := comes.settled ended
    exact ⟨nofun, reach + 1, Eval.construct_stops comes ended passed enough⟩
  · -- The other evaluation is the same as far as to the part.
    have grant : frame.endings.Grant (other.endings frame) (earlier ++ [⟨part, here⟩]) :=
      fun visit member outcome ends => (same visit member).unique ends
    exact Eval.construct_stops (comes.carry grant.left) (grant.right.head ended) passed enough
  · cases role with
    | plain => exact taken.elim
    | loopBody =>
      cases cause with
      | failed error => exact taken.elim
      | returned value => exact taken.elim
      | broke site => exact .inl (Frame.completes_broke comes ended)
      | continued site =>
        rcases Frame.resumes_continued comes ended with completes | resumes
        · exact .inl completes
        · exact .inr ⟨⟨site, rfl⟩, resumes⟩

/--
`FOR i = 0 TO RETURN 7 THEN i` returns 7 and binds nothing; `FOR i = 0 TO 1 THEN BREAK` completes in
its first round.
-/
theorem evaluation_stops_header :
    let state : State := ⟨(Store.empty.addScope none).2, Host.prepared [] [] .gibibyte .none⟩
    let frame := Frame.ofProgram ⟨0⟩ ⟨0⟩
    (Node.forLoop default "i" (.int default 0) (.returning default (some (.int default 7))) none
      (.reference default "i") .inline).Ends frame state
        (.exit (.returned (.number (.int 7))) state) ∧
    frame.Completes (.forLoop default "i" (.int default 0) (.int default 1) none (.breaking default)
      .inline) state (frame.count "i" (.int 0) state) := by
  intro state frame
  have int (value : Int64) : (Node.int default value).Ends frame state
      (.value (.number (.int value)) state) := ⟨nofun, 1, rfl⟩
  have returns : (Node.returning default (some (.int default 7))).Ends frame state
      (.exit (.returned (.number (.int 7))) state) := ⟨nofun, 2, rfl⟩
  have breaks : (Node.breaking default).Ends frame (frame.count "i" (.int 0) state)
      (.exit (.broke default) (frame.count "i" (.int 0) state)) := ⟨nofun, 1, rfl⟩
  have heads : frame.endings.Heads (.int default 0) (.int default 1) none state _ (.int 0)
      ⟨.int 1, .int 1⟩ state := .plain (int 0) (int 1)
  have first : frame.endings.Visits frame (.forLoop default "i" (.int default 0) (.int default 1)
      none (.breaking default) .inline) state _ .loopBody (.breaking default)
      (frame.count "i" (.int 0) state) := .counted heads .start .start rfl
  refine ⟨((evaluation_stops (.bound (int 0)) returns).1 id).1, ?_⟩
  rcases (evaluation_stops first breaks).2 trivial with completes | ⟨⟨site, continued⟩, _⟩
  · exact completes
  · nomatch continued

end Scriptlet
