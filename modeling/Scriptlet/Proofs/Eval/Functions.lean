import Scriptlet.Proofs.Eval.Constructs

/-! What the built-in functions do in corresponding frames with corresponding arguments. -/

namespace Scriptlet

/-- The built-in functions that change the elements of a list. -/
def Builtin.mutates : Builtin → Bool
  | .append | .pop | .extend => true
  | _ => false

/-- The built-in functions that spare lists; a call of any other one is cut off. -/
def Eval.sparing : Library := fun evaluate frame site function arguments =>
  if function.mutates then Action.cutOff else builtin evaluate frame site function arguments

namespace Coupling

variable {coupling : Coupling} {world : coupling.World} {roots : CallChain → CallChain → Prop}
  {evaluate evaluate' : Evaluator} {frame frame' : Frame} {site site' : Span}

/-- Programs that are built alike, in corresponding scopes that permit all names. -/
theorem Evaluators.runProgram {program program' : Node} {scope scope' : ScopeId}
    (globals globals' : ScopeId) (evaluators : coupling.Evaluators evaluate evaluate')
    (alike : program.Similar coupling.spans program')
    (places : coupling.scopes world scope scope')
    (permitted : coupling.Permits scope program.targets)
    (spoken : coupling.Speaks program.names := by exact fun _ _ => trivial) :
    coupling.Steps world (coupling.Errors CallChain.Programs) coupling.Values
      (Eval.runProgram evaluate program globals scope)
      (Eval.runProgram evaluate' program' globals' scope') :=
  Steps.settle (.ofProgram places)
    (evaluators _ _ _ _ _ _ alike (.ofProgram places) permitted spoken)

/-- Requirements that are not met are told alike. -/
theorem Frames.refuse (requirement : Requirement) (lawful : coupling.Lawful)
    (frames : coupling.Frames world roots frame frame') (places : coupling.spans site site') :
    coupling.Steps world (coupling.Errors roots) coupling.Values
      (Eval.refuse frame site requirement) (Eval.refuse frame' site' requirement) :=
  Steps.fail lawful frames places (.same _)

/-- Corresponding values are printed alike. -/
theorem Frames.print {value value' : Value} (lawful : coupling.Lawful)
    (frames : coupling.Frames world roots frame frame') (places : coupling.spans site site')
    (alike : coupling.Values world value value') :
    coupling.Steps world (coupling.Errors roots) coupling.Values (Eval.print frame site value)
      (Eval.print frame' site' value') := by
  -- The line that is written is the text of both values.
  unfold Eval.print
  apply Steps.bind lawful (Steps.textOf lawful alike)
  rintro later grown text _ rfl
  apply Steps.bind lawful
    (Steps.perform lawful (frames.mono lawful grown) places fun _ _ => Host.writeLine_scripts)
  intro last more _ _ _
  exact Steps.pure lawful fun _ _ => Values.null

/-- The same integer is read from equal hosts. -/
theorem Frames.readInteger (lines : Nat) (lawful : coupling.Lawful)
    (frames : coupling.Frames world roots frame frame') (places : coupling.spans site site') :
    coupling.Steps world (coupling.Errors roots) (fun _ integer integer' => integer = integer')
      (Eval.readInteger frame site lines) (Eval.readInteger frame' site' lines) := by
  -- Every line that is rebuked is rebuked in both.
  induction lines generalizing world with
  | zero => exact Steps.cutOff
  | succ lines ih =>
    simp only [Eval.readInteger]
    apply Steps.bind lawful (Steps.readLine lawful frames places)
    rintro later grown line _ rfl
    have framesLater := frames.mono lawful grown
    split
    · exact Steps.pure lawful fun _ _ => rfl
    · apply Steps.bind lawful
        (Steps.perform lawful framesLater places fun _ _ => Host.writeLine_scripts)
      intro last more _ _ _
      exact ih (framesLater.mono lawful more)

/-- The same integer is the value of reading one. -/
theorem Frames.inputInteger (lawful : coupling.Lawful)
    (frames : coupling.Frames world roots frame frame') (places : coupling.spans site site') :
    coupling.Steps world (coupling.Errors roots) coupling.Values
      (Eval.inputInteger frame site) (Eval.inputInteger frame' site') := by
  -- Equal hosts bound the number of lines in the same way.
  unfold Eval.inputInteger
  apply Steps.bind lawful (Steps.linesLeft lawful)
  rintro later grown lines _ rfl
  have framesLater := frames.mono lawful grown
  apply Steps.bind lawful (framesLater.readInteger (lines + 1) lawful places)
  rintro last more integer _ rfl
  exact Steps.pure lawful fun _ _ => .number _

/-- Equal hosts are cleared alike. -/
theorem Frames.clear (lawful : coupling.Lawful)
    (frames : coupling.Frames world roots frame frame') (places : coupling.spans site site') :
    coupling.Steps world (coupling.Errors roots) coupling.Values (Eval.clear frame site)
      (Eval.clear frame' site') := by
  -- Clearing has no value.
  unfold Eval.clear
  apply Steps.bind lawful (Steps.perform lawful frames places fun _ _ => Host.clear_scripts)
  intro later grown _ _ _
  exact Steps.pure lawful fun _ _ => Values.null

/-- The elements of corresponding lists, seen at any later time. -/
theorem Steps.elements {ε ε' : Type} {exits : coupling.World → ε → ε' → Prop}
    {list list' : ListId} (lawful : coupling.Lawful)
    (places : coupling.lists world list list') :
    coupling.Steps world exits
      (fun later elements elements' => coupling.Rows later elements.toList elements'.toList)
      (Action.look (·.elements list)) (Action.look (·.elements list')) :=
  look lawful fun _ grown _ _ stores => lawful.elements stores (lawful.lists_mono grown places)

/-- Changes of corresponding lists by which their elements stay in correspondence. -/
theorem Steps.modifyList {ε ε' : Type} {exits : coupling.World → ε → ε' → Prop}
    {list list' : ListId} {change change' : Array Value → Array Value} (lawful : coupling.Lawful)
    (allowed : coupling.AllowsChanges) (places : coupling.lists world list list')
    (changes : ∀ later, coupling.grows world later → ∀ elements elements',
      coupling.Rows later elements.toList elements'.toList →
      coupling.Rows later (change elements).toList (change' elements').toList) :
    coupling.Steps world exits (fun _ _ _ => True)
      (Action.change (Store.modifyList list change))
      (Action.change (Store.modifyList list' change')) := by
  -- Changing a list makes nothing new.
  apply Steps.change
  intro later grown store store' stores
  have placesLater := lawful.lists_mono grown places
  exact ⟨later, lawful.grows_refl later, allowed stores placesLater (changes later grown)⟩

/-- Corresponding values are put at the ends of corresponding lists. -/
theorem Frames.append {target target' value value' : Value} (lawful : coupling.Lawful)
    (allowed : coupling.AllowsChanges) (frames : coupling.Frames world roots frame frame')
    (places : coupling.spans site site') (targets : coupling.Values world target target')
    (alike : coupling.Values world value value') :
    coupling.Steps world (coupling.Errors roots) coupling.Values
      (Eval.append frame site target value) (Eval.append frame' site' target' value') := by
  -- Only lists are not refused.
  cases targets with
  | number number => exact frames.refuse .firstList lawful places
  | text text => exact frames.refuse .firstList lawful places
  | closure closures => exact frames.refuse .firstList lawful places
  | builtin builtin => exact frames.refuse .firstList lawful places
  | @list list list' lists =>
    have changed : coupling.Steps world (coupling.Errors roots) (fun _ _ _ => True)
        (Action.change (Store.modifyList list (·.push value)))
        (Action.change (Store.modifyList list' (·.push value'))) :=
      Steps.modifyList lawful allowed lists fun later grown _ _ row =>
        row.push (alike.mono lawful grown)
    apply Steps.bind lawful changed
    intro later grown _ _ _
    exact Steps.pure lawful fun _ _ => Values.null

/-- The elements at one index are taken out of corresponding lists. -/
theorem Frames.pop {target target' index index' : Value} (lawful : coupling.Lawful)
    (allowed : coupling.AllowsChanges) (frames : coupling.Frames world roots frame frame')
    (places : coupling.spans site site') (targets : coupling.Values world target target')
    (alike : coupling.Values world index index') :
    coupling.Steps world (coupling.Errors roots) coupling.Values
      (Eval.pop frame site target index) (Eval.pop frame' site' target' index') := by
  -- Only a list and an integer are not refused.
  cases targets with
  | number number => exact frames.refuse .firstList lawful places
  | text text => exact frames.refuse .firstList lawful places
  | closure closures => exact frames.refuse .firstList lawful places
  | builtin builtin => exact frames.refuse .firstList lawful places
  | @list list list' lists =>
    cases alike with
    | text text => exact frames.refuse .secondNumber lawful places
    | list others => exact frames.refuse .secondNumber lawful places
    | closure closures => exact frames.refuse .secondNumber lawful places
    | builtin builtin => exact frames.refuse .secondNumber lawful places
    | number number =>
      cases number with
      | float value => exact frames.refuse .secondNumber lawful places
      | int index =>
        unfold Eval.pop
        apply Steps.bind lawful (Steps.elements lawful lists)
        intro later grown elements elements' row
        have framesLater := frames.mono lawful grown
        simp only [row.place]
        cases Operation.place elements' index .removal with
        | error fault => exact Steps.fail lawful framesLater places (.same _)
        | ok offset =>
          have listsLater := lawful.lists_mono grown lists
          have changed : coupling.Steps later (coupling.Errors roots) (fun _ _ _ => True)
              (Action.change (Store.modifyList list (·.eraseIdxIfInBounds offset)))
              (Action.change (Store.modifyList list' (·.eraseIdxIfInBounds offset))) :=
            Steps.modifyList lawful allowed listsLater fun _ _ _ _ row => row.eraseIdx offset
          apply Steps.bind lawful changed
          intro last more _ _ _
          have taken := (row.getD offset).mono lawful more
          exact Steps.pure lawful fun _ longer => taken.mono lawful longer

/-- The elements of corresponding lists are put at the ends of corresponding lists. -/
theorem Frames.extend {target target' other other' : Value} (lawful : coupling.Lawful)
    (allowed : coupling.AllowsChanges) (frames : coupling.Frames world roots frame frame')
    (places : coupling.spans site site') (targets : coupling.Values world target target')
    (alike : coupling.Values world other other') :
    coupling.Steps world (coupling.Errors roots) coupling.Values
      (Eval.extend frame site target other) (Eval.extend frame' site' target' other') := by
  -- Only two lists are not refused.
  cases targets with
  | number number => exact frames.refuse .firstList lawful places
  | text text => exact frames.refuse .firstList lawful places
  | closure closures => exact frames.refuse .firstList lawful places
  | builtin builtin => exact frames.refuse .firstList lawful places
  | @list list list' lists =>
    cases alike with
    | number number => exact frames.refuse .secondList lawful places
    | text text => exact frames.refuse .secondList lawful places
    | closure closures => exact frames.refuse .secondList lawful places
    | builtin builtin => exact frames.refuse .secondList lawful places
    | list others =>
      unfold Eval.extend
      apply Steps.bind lawful (Steps.elements lawful others)
      intro later grown extra extra' row
      have changed : coupling.Steps later (coupling.Errors roots) (fun _ _ _ => True)
          (Action.change (Store.modifyList list (· ++ extra)))
          (Action.change (Store.modifyList list' (· ++ extra'))) :=
        Steps.modifyList lawful allowed (lawful.lists_mono grown lists)
          fun _ more _ _ elements => elements.append (Rows.mono lawful more row)
      apply Steps.bind lawful changed
      intro last more _ _ _
      exact Steps.pure lawful fun _ _ => Values.null

/-- Corresponding values have the same length. -/
theorem Frames.length {value value' : Value} (lawful : coupling.Lawful)
    (frames : coupling.Frames world roots frame frame') (places : coupling.spans site site')
    (alike : coupling.Values world value value') :
    coupling.Steps world (coupling.Errors roots) coupling.Values (Eval.length frame site value)
      (Eval.length frame' site' value') := by
  -- Of a list only its size counts.
  cases alike with
  | number number => exact frames.refuse .onlyList lawful places
  | closure closures => exact frames.refuse .onlyList lawful places
  | builtin builtin => exact frames.refuse .onlyList lawful places
  | text text => exact Steps.pure lawful fun _ _ => .number _
  | list lists =>
    unfold Eval.length
    apply Steps.bind lawful (Steps.elements lawful lists)
    intro later grown elements elements' row
    rw [row.size_eq]
    exact Steps.pure lawful fun _ _ => .number _

/-- The same script does the same, in new scopes inside corresponding programs. -/
theorem Evaluators.runScript (name text : String) (lawful : coupling.Lawful)
    (evaluators : coupling.Evaluators evaluate evaluate')
    (frames : coupling.Frames world roots frame frame') (places : coupling.spans site site')
    (spoken : ∀ program, ({ name, text } : Source).program = .ok program →
      coupling.Speaks program.names) :
    coupling.Steps world (coupling.Errors roots) coupling.Values
      (Eval.runScript evaluate frame site name text)
      (Eval.runScript evaluate' frame' site' name text) := by
  -- Either both find the same fault in the text or both run the same program.
  unfold Eval.runScript
  have enclosed : coupling.Steps world (coupling.Errors roots)
      (fun later inner inner' => coupling.scopes later inner inner' ∧
        ∀ name, coupling.permits inner name)
      (Action.make (Store.enclose frame.program)) (Action.make (Store.enclose frame'.program)) := by
    apply Steps.make
    intro later grown store store' stores
    obtain ⟨last, more, inners, stores, permitted⟩ :=
      lawful.enclose stores (lawful.scopes_mono grown frames.program)
    exact ⟨last, more, ⟨inners, permitted⟩, stores⟩
  apply Steps.bind lawful enclosed
  rintro later grown inner inner' ⟨inners, permitted⟩
  have framesLater := frames.mono lawful grown
  cases read : ({ name, text } : Source).program with
  | error error => exact Steps.fail lawful framesLater places (.same _)
  | ok program =>
    have alike := Node.Similar.refl lawful.spans_refl program
    have run := evaluators.runProgram frame.globals frame'.globals alike inners
      (fun name _ => permitted name) (spoken _ read)
    -- The report of a script that failed shows places, which may differ.
    have told : coupling.Steps later (coupling.Errors roots) coupling.Values
        ((Eval.runProgram evaluate program frame.globals inner).mapExit fun error =>
          frame.error (.scriptFailed name error.report) site)
        ((Eval.runProgram evaluate' program frame'.globals inner').mapExit fun error =>
          frame'.error (.scriptFailed name error.report) site') :=
      run.mapExit fun last error error' same =>
        framesLater.error places (.scriptFailed same.causes same.places same.chains)
    apply Steps.bind lawful told
    intro last more _ _ _
    exact Steps.pure lawful fun _ _ => Values.null

/-- The scripts of corresponding names are loaded and run alike. -/
theorem Evaluators.run {value value' : Value} (lawful : coupling.Lawful)
    (evaluators : coupling.Evaluators evaluate evaluate')
    (frames : coupling.Frames world roots frame frame') (places : coupling.spans site site')
    (alike : coupling.Values world value value') :
    coupling.Steps world (coupling.Errors roots) coupling.Values
      (Eval.run evaluate frame site value) (Eval.run evaluate' frame' site' value') := by
  -- Equal hosts load the same script.
  cases alike with
  | number number => exact frames.refuse .onlyText lawful places
  | list lists => exact frames.refuse .onlyText lawful places
  | closure closures => exact frames.refuse .onlyText lawful places
  | builtin builtin => exact frames.refuse .onlyText lawful places
  | text name =>
    unfold Eval.run
    apply Steps.bind lawful (Steps.load name lawful)
    rintro later grown script _ ⟨rfl, spoken⟩
    have framesLater := frames.mono lawful grown
    cases script with
    | error reason => exact Steps.fail lawful framesLater places (.same _)
    | ok text =>
      exact evaluators.runScript name text lawful framesLater places fun program =>
        spoken text program rfl

/-- The same answer to a question. -/
theorem Steps.answer {answer answer' : Bool} (lawful : coupling.Lawful)
    (same : answer = answer') :
    coupling.Steps world (coupling.Errors roots) coupling.Values
      (Pure.pure (.ofBool answer) : Action EvalError Value) (Pure.pure (.ofBool answer')) := by
  -- Answers have no place.
  rw [same]
  exact pure lawful fun _ _ => Values.ofBool _

/--
A built-in function does the same with corresponding arguments, unless it changes a list and the
coupling does not allow changes.
-/
theorem Evaluators.builtin {function : Builtin} {arguments arguments' : List Value}
    (lawful : coupling.Lawful) (evaluators : coupling.Evaluators evaluate evaluate')
    (allowed : function.mutates = true → coupling.AllowsChanges)
    (frames : coupling.Frames world roots frame frame') (places : coupling.spans site site')
    (fits : arguments.length = function.parameters.length)
    (alike : coupling.Rows world arguments arguments') :
    coupling.Steps world (coupling.Errors roots) coupling.Values
      (Eval.builtin evaluate frame site function arguments)
      (Eval.builtin evaluate' frame' site' function arguments') := by
  -- Functions look at no more than their first two arguments.
  have first : coupling.Values world (arguments.getD 0 .null) (arguments'.getD 0 .null) := by
    rw [List.getD_eq_getElem?_getD, List.getD_eq_getElem?_getD]
    exact alike.valueAt 0
  have second : coupling.Values world (arguments.getD 1 .null) (arguments'.getD 1 .null) := by
    rw [List.getD_eq_getElem?_getD, List.getD_eq_getElem?_getD]
    exact alike.valueAt 1
  rw [Eval.builtin_eq_effect fits, Eval.builtin_eq_effect (alike.length_eq ▸ fits)]
  unfold Eval.effect
  generalize arguments.getD 0 .null = given, arguments'.getD 0 .null = given' at first
  generalize arguments.getD 1 .null = other, arguments'.getD 1 .null = other' at second
  cases function with
  | print => exact frames.print lawful places first
  | inputInt => exact frames.inputInteger lawful places
  | clear => exact frames.clear lawful places
  | append => exact frames.append lawful (allowed rfl) places first second
  | pop => exact frames.pop lawful (allowed rfl) places first second
  | extend => exact frames.extend lawful (allowed rfl) places first second
  | length => exact frames.length lawful places first
  | run => exact evaluators.run lawful frames places first
  | isNumber => exact Steps.answer lawful (by cases first <;> rfl)
  | isText => exact Steps.answer lawful (by cases first <;> rfl)
  | isList => exact Steps.answer lawful (by cases first <;> rfl)
  | isFunction => exact Steps.answer lawful (by cases first <;> rfl)
  | printRet =>
    apply Steps.bind lawful (Steps.textOf lawful first)
    rintro later grown text _ rfl
    exact Steps.pure lawful fun _ _ => .text text
  | input =>
    apply Steps.bind lawful (Steps.readLine lawful frames places)
    rintro later grown line _ rfl
    exact Steps.pure lawful fun _ _ => .text line

/-- The built-in functions do the same where changes of lists are allowed. -/
theorem Lawful.builtins (lawful : coupling.Lawful) (allowed : coupling.AllowsChanges) :
    coupling.Libraries Eval.builtin Eval.builtin :=
  fun _ _ evaluators _ _ _ _ _ _ _ _ _ frames places fits alike =>
    evaluators.builtin lawful (fun _ => allowed) frames places fits alike

/-- Where the first run may be cut off, it may be one that spares lists. -/
theorem Lawful.sparing (lawful : coupling.Lawful) (lax : coupling.lax) :
    coupling.Libraries Eval.sparing Eval.builtin := by
  -- A function that changes lists is cut off, and every other one is the same in both.
  intro evaluate evaluate' evaluators world roots frame frame' site site' function arguments
    arguments' frames places fits alike
  unfold Eval.sparing
  split
  · exact fun _ _ _ _ _ => .cut lax _
  · rename_i spares
    exact evaluators.builtin lawful (fun mutates => absurd mutates spares) frames places fits alike

end Coupling

end Scriptlet
