import FormBasic.Proofs.Script.Conduct

/-!
# Scripts are orderly

Every script function keeps to any conduct that its parts allow: an expression writes no variable and
passes on every fault it is given, a block writes only the variables it names, and whatever ends
early ends with a fault that arose in it or was given to it.

## Main statements

* `Script.orderly_setProperty` - a property is written only together with its notification, and its
  timer is brought in line after the reply
* `Script.orderly_eval` - expressions are orderly, and write no variable
* `Script.orderly_block` - blocks are orderly, and write only the variables they name
* `Script.orderly_start`, `Script.orderly_fire` - so are the things that can be done from outside
-/

namespace FormBasic

namespace Script

variable {k : Conduct}

theorem orderly_report (message : Text) (line : Line) : (report message line).Orderly k :=
  orderly_ask rfl

theorem synchronize_apply (component : Key) (w : World) :
    synchronize component w = match w.synchronize component with
      | .ok w' => .done w' ()
      | .error fault => .failed w fault := by
  change (lift (w.synchronize component) >>= fun w => enter w) w = _
  cases w.synchronize component <;> rfl

theorem orderly_synchronize (component : Key) : (synchronize component).Orderly k := by
  intro w
  have hfault := arising_synchronize w component
  rw [OrderlyAt, synchronize_apply]
  cases h : w.synchronize component with
  | ok w' => exact .single (.timer h)
  | error fault => exact ⟨.refl, k.arises (h ▸ hfault).of_error⟩

/-- A property is written only together with its notification, and once the host has replied the
timer is brought in line. -/
theorem orderlyAt_setProperty {w : World} {component : Text} (h : w.hasComponent component = true)
    (name : Text) (value : Value) : (setProperty component name value).OrderlyAt k w := by
  obtain ⟨c, hc⟩ := Option.isSome_iff_exists.1 h
  refine orderlyAt_look ?_
  split
  · next hstored => simp [World.storeProperty, hc] at hstored
  · next w' key hstored =>
    -- the write and its notification belong to the same wait; the timer comes after the reply
    refine ⟨⟨w, .refl, World.announced_of_storeProperty hstored⟩, fun w reply hreply => ?_,
      fun _ _ _ => rfl⟩
    cases hreply with
    | error hfault => exact ⟨.refl, hfault⟩
    | ok _ =>
      change ((if w.timers.started && World.drivesTimer key then do
          synchronize (.text component)
          return key
        else return key : Script Text) w).Orderly k _
      unfold World.served
      simp only
      split
      · have hfault := arising_synchronize w (.text component)
        change ((synchronize (.text component) w).andThen _).Orderly k _
        rw [synchronize_apply]
        cases hsync : w.synchronize (.text component) with
        | ok w' => exact .refl
        | error fault => exact ⟨.refl, k.arises (hsync ▸ hfault).of_error⟩
      · exact .refl

theorem orderly_guarded (what : Text) (line : Line) (result : Except Refusal Value) :
    (guarded what line result).Orderly k := by
  cases result with
  | ok value => exact orderly_pure value
  | error refusal => exact (orderly_report _ _).bind fun _ => orderly_pure _

theorem orderly_display (value : Value) : (display value).Orderly k :=
  orderly_compute (unguarded_display value)

theorem orderly_index (container key : Value) : (index container key).Orderly k :=
  fun w => orderlyAt_look <| orderlyAt_lift (arising_index w.objects container key) fun found =>
    .single (.objects w found.1)

theorem orderly_indexed (value : Value) (args : List Value) :
    (indexed value args).Orderly k := by
  cases args with
  | nil => exact orderly_pure value
  | cons key _ => exact orderly_index value key

-- ════════════════════════════════════════════════════════════════════════════
-- Data access
-- ════════════════════════════════════════════════════════════════════════════

theorem orderly_create (object : Data.Object) : (create object).Orderly k :=
  fun w => .single (.objects w _)

theorem orderly_replace (h : Handle) (object : Data.Object) : (replace h object).Orderly k :=
  fun w => .single (.objects w _)

theorem orderly_member (h : Handle) (name : Text) : (member h name).Orderly k :=
  fun w => .single (.objects w _)

theorem orderly_setMember (h : Handle) (name : Text) (value : Value) :
    (setMember h name value).Orderly k :=
  fun w => orderlyAt_look <| orderlyAt_compute (unguarded_setMember w.objects h name value)
    fun objects => .single (.objects w objects)

theorem orderly_object? (value : Value) : (object? value).Orderly k := by
  cases value with
  | object h => exact orderly_world.bind fun _ => orderly_pure _
  | _ => exact orderly_pure _

theorem orderly_construct? {typeName : String} {args : List Value} {script : Script Value}
    (h : construct? typeName args = some script) : script.Orderly k := by
  unfold construct? at h
  split at h <;> cases h
  · exact (orderly_display _).bind fun _ => orderly_create _
  · refine (orderly_display _).bind fun _ => (orderly_object? _).bind fun _ => ?_
    split
    · exact orderly_create _
    · exact orderly_create _
    · exact orderly_throw (k.arises rfl)
  · exact orderly_create _
  · exact orderly_create _

theorem orderly_connectFile (path : Text) : (connectFile path).Orderly k := by
  refine (orderly_ask rfl).bind fun reply => ?_
  cases reply with
  | ok link => exact orderly_pure link
  | error reason => exact orderly_throw (k.arises rfl)

theorem orderly_connectMemory : connectMemory.Orderly k := by
  refine (orderly_ask rfl).bind fun reply => ?_
  cases reply with
  | ok link => exact orderly_pure link
  | error reason => exact orderly_throw (k.arises rfl)

theorem orderly_openDatabase (connectionString : Text) :
    (openDatabase connectionString).Orderly k := by
  unfold openDatabase
  split
  · exact orderly_connectFile _
  · refine orderly_world.bind fun w => ?_
    split
    · exact orderly_pure _
    · refine orderly_connectMemory.bind fun link => ?_
      refine (orderly_update fun w => ?_).bind fun _ => orderly_pure link
      exact .single (.memory w _ link)

theorem orderly_openConnection (h : Handle) (c : Data.Connection) :
    (openConnection h c).Orderly k :=
  (orderly_openDatabase _).bind fun _ => orderly_replace _ _

theorem orderly_closeConnection (h : Handle) (c : Data.Connection) :
    (closeConnection h c).Orderly k := by
  unfold closeConnection
  split
  · exact orderly_replace _ _
  · refine (orderly_ask rfl).bind fun _ => orderly_world.bind fun w => ?_
    split
    · exact (orderly_ask rfl).bind fun _ => orderly_replace _ _
    · exact orderly_replace _ _

theorem orderly_requireOpen (operation : Text) (connection : Value) :
    (requireOpen operation connection).Orderly k := by
  refine (orderly_object? _).bind fun found => ?_
  split
  · exact orderly_throw (k.arises rfl)
  · split
    · exact orderly_pure _
    · exact orderly_throw (k.arises rfl)
  · exact orderly_throw (k.arises rfl)

theorem orderly_execute (operation : Text) (c : Data.Command) :
    (execute operation c).Orderly k := by
  refine (orderly_requireOpen _ _).bind fun link =>
    (orderly_compute (unguarded_boundParameters c)).bind fun _ => ?_
  refine (orderly_ask rfl).bind fun reply => ?_
  cases reply with
  | ok result => exact orderly_pure _
  | error reason => exact orderly_throw (k.arises rfl)

theorem orderly_executeReader (c : Data.Command) : (executeReader c).Orderly k :=
  (orderly_execute _ c).bind fun _ => orderly_pure _

theorem orderly_executeNonQuery (c : Data.Command) : (executeNonQuery c).Orderly k :=
  (orderly_execute _ c).bind fun _ => (orderly_ask rfl).bind fun _ => orderly_pure _

theorem orderly_executeScalar (c : Data.Command) : (executeScalar c).Orderly k :=
  (orderly_execute _ c).bind fun _ => (orderly_ask rfl).bind fun _ => orderly_pure _

theorem orderly_fill (command target : Value) : (fill command target).Orderly k := by
  unfold fill
  split
  · exact orderly_throw (k.arises rfl)
  · refine (orderly_object? _).bind fun _ => ?_
    split
    · refine (orderly_object? _).bind fun _ => ?_
      split
      · refine (orderly_executeReader _).bind fun _ => (orderly_object? _).bind fun _ => ?_
        split
        · exact (orderly_replace _ _).bind fun _ => orderly_pure _
        · exact orderly_pure _
      · exact orderly_throw (k.arises rfl)
    · exact orderly_throw (k.arises rfl)

theorem orderly_invokeMember (h : Handle) (name : Text) (args : List Value) :
    (invokeMember h name args).Orderly k :=
  (orderly_member h name).bind fun _ => orderly_indexed _ args

theorem orderly_invokeReader (h : Handle) (r : Data.Reader) (name : Text) (args : List Value) :
    (invokeReader h r name args).Orderly k := by
  have hvalue : (compute (r.value (Library.arg args 0 .nothing))).Orderly k :=
    orderly_compute (unguarded_value r _)
  unfold invokeReader
  split
  · exact (orderly_replace _ _).bind fun _ => orderly_pure _
  · exact (orderly_replace _ _).bind fun _ => orderly_pure _
  · exact hvalue.bind fun _ => (orderly_display _).bind fun _ => orderly_pure _
  · exact hvalue.bind fun v => (orderly_compute (unguarded_toPosition v)).bind fun _ =>
      orderly_pure _
  · exact hvalue
  · exact hvalue
  · exact hvalue.bind fun _ => orderly_pure _
  · exact orderly_invokeMember h name args

theorem orderly_clearTable (h : Handle) : (clearTable h).Orderly k :=
  (orderly_replace _ _).bind fun _ => orderly_pure _

theorem orderly_changeParameters (h : Handle) (f : Table Value → Table Value) :
    (changeParameters h f).Orderly k := by
  refine orderly_world.bind fun w => ?_
  split
  · exact (orderly_replace _ _).bind fun _ => orderly_pure _
  · exact orderly_pure _

theorem orderly_addParameter (command : Handle) (args : List Value) :
    (addParameter command args).Orderly k := by
  cases args with
  | nil => exact orderly_throw (k.arises rfl)
  | cons name rest => exact (orderly_display _).bind fun _ => orderly_changeParameters _ _

theorem orderly_invoke (h : Handle) (name : Text) (args : List Value) :
    (invoke h name args).Orderly k := by
  refine orderly_world.bind fun w => ?_
  split
  · exact (orderly_openConnection _ _).bind fun _ => orderly_pure _
  · exact (orderly_closeConnection _ _).bind fun _ => orderly_pure _
  · exact orderly_create _
  · exact (orderly_executeReader _).bind fun _ => orderly_create _
  · exact orderly_executeNonQuery _
  · exact orderly_executeScalar _
  · exact orderly_invokeReader _ _ _ _
  · split
    · exact orderly_index _ _
    · exact orderly_invokeMember _ _ _
  · exact orderly_clearTable _
  · exact orderly_clearTable _
  · exact orderly_addParameter _ _
  · exact orderly_addParameter _ _
  · exact orderly_changeParameters _ _
  · exact orderly_fill _ _
  · exact orderly_invokeMember _ _ _

-- ════════════════════════════════════════════════════════════════════════════
-- Calls
-- ════════════════════════════════════════════════════════════════════════════

theorem orderly_stop : stop.Orderly k := fun w => .single (.stop w)

theorem orderly_messageBox (text : Value) : (messageBox text).Orderly k :=
  (orderly_display _).bind fun _ => (orderly_ask rfl).bind fun _ => orderly_pure _

theorem orderly_displayAll (args : List Value) : (displayAll args).Orderly k :=
  (orderly_compute (failsOnly_mapM unguarded_display args)).bind fun _ => orderly_pure _

theorem orderly_displayArg (args : List Value) (position : Nat) (default : Text) :
    (displayArg args position default).Orderly k := by
  unfold displayArg
  split
  · exact orderly_display _
  · exact orderly_pure _

theorem orderly_callConsole? {method : String} {args : List Value} {script : Script Value}
    (h : callConsole? method args = some script) : script.Orderly k := by
  unfold callConsole? at h
  split at h <;> cases h
  · refine (orderly_displayAll _).bind fun text => ?_
    refine (orderly_update fun w => ?_).bind fun _ => (orderly_ask rfl).bind fun _ => orderly_pure _
    exact .single (.console w _)
  · exact (orderly_displayAll _).bind fun _ => (orderly_ask rfl).bind fun _ => orderly_pure _
  · exact (orderly_ask rfl).bind fun _ => (orderly_display _).bind fun _ => orderly_pure _
  · exact (orderly_ask rfl).bind fun _ => (orderly_display _).bind fun _ => orderly_pure _
  · exact (orderly_update fun w => .single (.console w _)).bind fun _ => orderly_pure _

theorem orderly_loadText (name extension : Text) : (loadText name extension).Orderly k :=
  (orderly_ask rfl).bind fun _ => orderly_display _

theorem orderly_callFile (method : String) (args : List Value) :
    (callFile method args).Orderly k := by
  refine (orderly_display _).bind fun name => orderly_world.bind fun w => ?_
  split
  · exact (orderly_display _).bind fun _ => (orderly_displayArg _ _ _).bind fun _ =>
      (orderly_ask rfl).bind fun _ => orderly_pure _
  · exact (orderly_display _).bind fun _ => (orderly_displayArg _ _ _).bind fun _ =>
      (orderly_loadText _ _).bind fun _ => (orderly_ask rfl).bind fun _ => orderly_pure _
  · exact (orderly_displayArg _ _ _).bind fun _ => (orderly_loadText _ _).bind fun _ =>
      orderly_pure _
  · exact orderly_pure _

theorem orderly_callClass (line : Line) (className method : String) (args : List Value) :
    (callClass line className method args).Orderly k := by
  unfold callClass
  simp only
  split
  · split
    · exact orderly_messageBox _
    · exact orderly_pure _
  · cases h : callConsole? method args with
    | some script => exact orderly_callConsole? h
    | none => exact orderly_pure _
  · exact orderly_callFile _ _
  all_goals
    split
    · exact orderly_guarded _ _ _
    · exact orderly_pure _

theorem orderlyAt_callList? {w : World} {component : Text} (h : w.hasComponent component = true)
    (property : Text) (method : String) (args : List Value) :
    (callList? component property method args).OrderlyAt k w := by
  refine orderlyAt_look ?_
  split
  · exact orderly_pure _ w
  · refine orderlyAt_compute (unguarded_changeList method _ args) fun change => ?_
    split
    · exact orderly_pure _ w
    · exact orderly_pure _ w
    · exact ((orderlyAt_setProperty h _ _).bind fun _ => orderly_pure _).bind fun _ => orderly_pure _

theorem orderlyAt_callComponent {w : World} {component : Text}
    (h : w.hasComponent component = true) (name : Text) (args : List Value) :
    (callComponent component name args).OrderlyAt k w := by
  have hset : ∀ property value, (do
      discard (setProperty component property value)
      return .nothing : Script Value).OrderlyAt k w := by
    intro property value
    exact ((orderlyAt_setProperty h _ _).bind fun _ => orderly_pure _).bind fun _ => orderly_pure _
  refine orderlyAt_look ?_
  simp only
  split
  · split <;> exact hset _ _
  · exact orderly_pure _ w
  · exact hset _ _
  · exact hset _ _
  · exact hset _ _
  · exact hset _ _
  · exact orderlyAt_compute (unguarded_display _) fun _ =>
      orderlyAt_compute (unguarded_display _) fun _ => hset _ _
  · split
    · exact (orderly_stop.bind fun _ => orderly_pure _) w
    · exact orderly_pure _ w
  · exact ((orderly_call _).discard.bind fun _ => orderly_pure _) w
  · exact orderlyAt_lift (arising_property _ _ _) fun _ => orderly_indexed _ _ w

theorem orderly_inputBox (args : List Value) : (inputBox args).Orderly k :=
  (orderly_display _).bind fun _ => (Orderly.mapM orderly_display _).bind fun _ =>
    (Orderly.mapM orderly_display _).bind fun _ => (orderly_ask rfl).bind fun _ =>
      (orderly_display _).bind fun _ => orderly_pure _

theorem orderly_calculate (line : Line) (args : List Value) :
    (calculate line args).Orderly k := by
  have hfails := arising_evaluateText (Library.arg args 0 (.text ""))
  unfold calculate
  split
  · exact orderly_pure _
  · exact (orderly_report _ _).bind fun _ => orderly_pure _
  · next h =>
    rw [h] at hfails
    exact orderly_throw (k.arises hfails.of_error)

theorem orderly_callOwn (name : Text) (args : List Value) : (callOwn name args).Orderly k := by
  refine orderly_world.bind fun w => ?_
  split
  · exact (orderly_call _).discard.bind fun _ => orderly_pure _
  · split
    · exact orderly_indexed _ _
    · exact orderly_pure _

theorem orderly_callNamed (line : Line) (name : Text) (args : List Value) :
    (callNamed line name args).Orderly k := by
  unfold callNamed
  simp only
  split
  · next h => exact orderly_construct? h
  · split
    · exact orderly_messageBox _
    · exact orderly_inputBox _
    · exact orderly_calculate _ _
    · exact (orderly_ask rfl).bind fun _ => orderly_pure _
    · split
      · exact orderly_guarded _ _ _
      · exact orderly_callOwn _ _

theorem orderly_readMember (owner : Value) (name : Text) :
    (readMember owner name).Orderly k := by
  unfold readMember
  split
  · exact orderly_member _ _
  · split
    · exact orderly_compute (unguarded_callMethod _ _ _)
    · exact orderly_pure _
  · split <;> exact orderly_pure _
  · exact orderly_pure _
  · exact orderly_pure _

theorem orderly_callMember (owner : Value) (name : Text) (args : List Value) :
    (callMember owner name args).Orderly k := by
  unfold callMember
  split
  · exact orderly_invoke _ _ _
  · exact orderly_compute (unguarded_callMethod _ _ _)
  · exact orderly_pure _
  · exact orderly_pure _

-- ════════════════════════════════════════════════════════════════════════════
-- Expressions
-- ════════════════════════════════════════════════════════════════════════════

theorem orderly_applyBinary {line : Line} (hline : k.Owns line) (op : BinaryOp) (left right : Value) :
    (applyBinary line op left right).Orderly k := by
  unfold applyBinary
  split
  · unfold applyArithmetic
    simp only
    split
    · exact (orderly_report _ _).bind fun _ => orderly_pure _
    · split
      · exact orderly_pure _
      · exact (orderly_report _ _).bind fun _ => orderly_pure _
  · split
    · exact (orderly_display _).bind fun _ => (orderly_display _).bind fun _ => orderly_pure _
    · exact orderly_pure _
    · exact orderly_pure _
    · exact orderly_pure _
    · exact orderly_pure _
    · exact orderly_pure _
    · exact orderly_pure _
    · exact orderly_pure _
    · exact orderly_pure _
    · exact orderly_throw (hline _)

theorem orderly_applyUnary {line : Line} (hline : k.Owns line) (op : UnaryOp) (operand : Value) :
    (applyUnary line op operand).Orderly k := by
  cases op with
  | neg => exact orderly_pure _
  | not => exact orderly_pure _
  | unknown text => exact orderly_throw (hline _)

theorem orderly_evalMember (object : Expr) (name : Text) {value : Script Value}
    (h : value.Orderly k) : (evalMember object name value).Orderly k := by
  refine orderly_world.bind fun w => ?_
  split
  · exact orderly_lift (arising_property _ _ _)
  · split
    · exact orderly_pure _
    · exact h.bind fun _ => orderly_readMember _ _

/-- An object expression refers to a component only if there is one. -/
theorem hasComponent_of_component? {w : World} {object : Expr} {component : Text}
    (h : w.component? object = some component) : w.hasComponent component = true := by
  unfold World.component? World.form? at h
  grind

theorem orderly_callOnList? (object : Expr) (method : String) (args : List Value) :
    (callOnList? object method args).Orderly k := by
  unfold callOnList?
  split
  · refine fun w => orderlyAt_look ?_
    split
    · next h => exact orderlyAt_callList? (hasComponent_of_component? h) _ _ _
    · exact orderly_pure _ w
  · exact orderly_pure _

theorem orderly_callMethod (line : Line) (object : Expr) (name : Text) (args : List Value)
    {value : Script Value} (h : value.Orderly k) :
    (callMethod line object name args value).Orderly k := by
  refine (orderly_callOnList? _ _ _).bind fun result => ?_
  split
  · exact orderly_pure _
  · refine fun w => orderlyAt_look ?_
    split
    · exact orderly_callClass _ _ _ _ w
    · next hcomponent => exact orderlyAt_callComponent (hasComponent_of_component? hcomponent) _ _
    · split
      · split
        · exact (orderly_stop.bind fun _ => orderly_pure _) w
        · exact orderly_pure _ w
      · exact (h.bind fun _ => orderly_callMember _ _ _) w
    · exact (h.bind fun _ => orderly_callMember _ _ _) w

mutual

/-- Evaluating an expression writes no variable, and a property only together with its
notification. -/
theorem orderly_eval {line : Line} (hline : k.Owns line) : ∀ e : Expr, (eval line e).Orderly k
  | .number n => orderly_pure _
  | .string s => orderly_pure _
  | .boolean b => orderly_pure _
  | .nothing => orderly_pure _
  | .ident name => orderly_world.bind fun _ => orderly_pure _
  | .member object name => orderly_evalMember object name (orderly_eval hline object)
  | .index object key =>
    (orderly_eval hline object).bind fun _ => (orderly_eval hline key).bind fun _ =>
      orderly_index _ _
  | .call target args => by
    have hargs : (evalAll line args).Orderly k := orderly_evalAll hline args
    have htarget : (eval line target).Orderly k := orderly_eval hline target
    cases target with
    | ident name => exact hargs.bind fun _ => orderly_callNamed _ _ _
    | member object name =>
      exact hargs.bind fun _ => orderly_callMethod line object name _ (orderly_eval hline object)
    | _ => exact hargs.bind fun _ => htarget.bind fun _ => orderly_indexed _ _
  | .binary op left right =>
    (orderly_eval hline left).bind fun _ => (orderly_eval hline right).bind fun _ =>
      orderly_applyBinary hline _ _ _
  | .unary op operand => (orderly_eval hline operand).bind fun _ => orderly_applyUnary hline _ _
  | .alien kind => orderly_throw (hline _)

theorem orderly_evalAll {line : Line} (hline : k.Owns line) :
    ∀ es : List Expr, (evalAll line es).Orderly k
  | [] => orderly_pure _
  | e :: es =>
    (orderly_eval hline e).bind fun _ => (orderly_evalAll hline es).bind fun _ => orderly_pure _

end

-- ════════════════════════════════════════════════════════════════════════════
-- Statements
-- ════════════════════════════════════════════════════════════════════════════

theorem orderly_setVariable {name : Text} (h : k.names name) (value : Value) :
    (setVariable name value).Orderly k :=
  fun w => .single (.variable w h value)

theorem orderly_assign {line : Line} (hline : k.Owns line) (target : Expr) (value : Value)
    (h : ∀ name, target = .ident name → k.names name) : (assign line target value).Orderly k := by
  unfold assign
  split
  · refine orderly_world.bind fun w => ?_
    split
    · exact orderly_setVariable (h _ rfl) value
    · exact orderly_pure _
  · refine fun w => orderlyAt_look ?_
    split
    · next hcomponent =>
      exact (orderlyAt_setProperty (hasComponent_of_component? hcomponent) _ _).bind fun _ =>
        orderly_pure _
    · refine ((orderly_eval hline _).bind fun owner => ?_) w
      split
      · exact orderly_setMember _ _ _
      · exact orderly_pure _
  · exact orderly_pure _

theorem orderly_goesOn : goesOn.Orderly k := orderly_world.bind fun _ => orderly_pure _

theorem orderly_cappedLoop {σ : Type} (kind : LoopKind) (line : Line) {test : σ → Script Bool}
    {round : σ → Script (Option σ)} (htest : ∀ s, (test s).Orderly k)
    (hround : ∀ s, (round s).Orderly k) (start : σ) :
    (cappedLoop kind line test round start).Orderly k := by
  intro w
  have hrunaway : (reportRunaway kind line).Orderly k :=
    orderly_world.bind fun _ => orderly_report _ _
  exact Orderly.loop htest hround hrunaway _ start w

theorem orderly_advance (name : Text) (step counter : Number) :
    (advance name step counter).Orderly k :=
  orderly_world.bind fun _ => (orderly_compute (unguarded_add _ _)).bind fun _ => orderly_pure _

theorem orderly_forLoop (line : Line) {name : Text} (h : k.names name) (start stop step : Number)
    {body : Script Unit} (hbody : body.Orderly k) :
    (forLoop line name start stop step body).Orderly k := by
  refine (orderly_setVariable h _).bind fun _ => ?_
  split
  · exact orderly_pure _
  · refine orderly_cappedLoop _ _ (fun counter => ?_) (fun counter => ?_) start
    · split
      · exact orderly_goesOn
      · exact orderly_pure _
    · exact (orderly_setVariable h _).bind fun _ => hbody.bind fun _ =>
        (orderly_advance _ _ _).bind fun _ => (orderly_setVariable h _).bind fun _ => orderly_pure _

theorem orderly_whileLoop (line : Line) {condition : Script Value} {body : Script Unit}
    (hcondition : condition.Orderly k) (hbody : body.Orderly k) :
    (whileLoop line condition body).Orderly k := by
  refine orderly_cappedLoop _ _ (fun _ => ?_) (fun _ => ?_) ()
  · refine orderly_goesOn.bind fun more => ?_
    split
    · exact hcondition.bind fun _ => orderly_pure _
    · exact orderly_pure _
  · exact hbody.bind fun _ => orderly_pure _

theorem orderly_doLoop (line : Line) {body : Script Unit} {condition : Option (Script Value)}
    (hbody : body.Orderly k) (hcondition : ∀ c ∈ condition, c.Orderly k)
    (ending : Bool) : (doLoop line body condition ending).Orderly k := by
  refine orderly_cappedLoop _ _ (fun _ => orderly_goesOn) (fun _ => ?_) ()
  refine hbody.bind fun _ => ?_
  cases condition with
  | none => exact orderly_pure _
  | some c => exact (hcondition c rfl).bind fun _ => orderly_pure _

theorem Orderly.onLine {script : Script Unit} (h : script.Orderly k) (hk : k.Lenient) (line : Line) :
    (onLine line script).Orderly k := by
  refine orderly_world.bind fun w => ?_
  split
  · exact orderly_pure _
  · exact h.attribute hk line

end Script

mutual

/-- The variables that a statement names as targets. -/
def Stmt.targets : Stmt → List Text
  | .dim name _ _ _ => [name]
  | .assign (.ident name) _ _ => [name]
  | .cond _ body elseIfs otherwise _ =>
    blockTargets body ++ elseIfTargets elseIfs ++ blockTargets otherwise
  | .forLoop name _ _ _ body _ => name :: blockTargets body
  | .whileLoop _ body _ => blockTargets body
  | .doLoop body _ _ _ _ => blockTargets body
  | _ => []
termination_by structural s => s

/-- The variables that a block names as targets. -/
def blockTargets : List Stmt → List Text
  | [] => []
  | s :: ss => s.targets ++ blockTargets ss
termination_by structural ss => ss

/-- The variables that further branches name as targets. -/
def elseIfTargets : List ElseIf → List Text
  | [] => []
  | e :: es => e.targets ++ elseIfTargets es
termination_by structural es => es

/-- The variables that a further branch names as targets. -/
def ElseIf.targets : ElseIf → List Text
  | .mk _ body => blockTargets body
termination_by structural e => e

end

namespace Script

variable {k : Conduct}

mutual

theorem orderly_exec (hk : k.Lenient) :
    ∀ s : Stmt, (∀ name ∈ s.targets, k.names name) → (exec s).Orderly k
  | .dim name typeName initial line, h => by
    have hname : k.names name := h name (List.mem_singleton_self name)
    refine Orderly.onLine ?_ hk line
    cases initial with
    | some e => exact (orderly_eval (hk.owns line) e).bind fun _ => orderly_setVariable hname _
    | none => exact orderly_setVariable hname _
  | .assign target value line, h => by
    refine Orderly.onLine ((orderly_eval (hk.owns line) value).bind fun v =>
      orderly_assign (hk.owns line) target v ?_) hk line
    rintro name rfl
    exact h name (List.mem_singleton_self name)
  | .call target args line, _ => (orderly_eval (hk.owns line) _).discard.onLine hk line
  | .cond test body elseIfs otherwise line, h => by
    simp only [Stmt.targets, List.mem_append] at h
    refine Orderly.onLine ((orderly_eval (hk.owns line) test).bind fun v => ?_) hk line
    split
    · exact orderly_block hk body fun name hn => h name (.inl (.inl hn))
    · refine (orderly_firstBranch hk line elseIfs fun name hn => h name (.inl (.inr hn))).bind
        fun found => ?_
      split
      · exact orderly_pure _
      · exact orderly_block hk otherwise fun name hn => h name (.inr hn)
  | .forLoop name start stop step body line, h => by
    have hname : k.names name := h name List.mem_cons_self
    have hbody := orderly_block hk body fun n hn => h n (List.mem_cons_of_mem _ hn)
    have hline := hk.owns line
    refine Orderly.onLine ?_ hk line
    refine (orderly_eval hline start).bind fun _ => (orderly_eval hline stop).bind fun _ => ?_
    cases step with
    | some e =>
      exact (orderly_eval hline e).bind fun _ => (orderly_pure _).bind fun _ =>
        orderly_forLoop line hname _ _ _ hbody
    | none => exact (orderly_pure _).bind fun _ => orderly_forLoop line hname _ _ _ hbody
  | .whileLoop test body line, h =>
    (orderly_whileLoop line (orderly_eval (hk.owns line) test) (orderly_block hk body h)).onLine
      hk line
  | .doLoop body test ending _ line, h => by
    refine (orderly_doLoop line (orderly_block hk body h) ?_ ending).onLine hk line
    intro c hc
    obtain ⟨e, -, rfl⟩ := Option.map_eq_some_iff.1 hc
    exact orderly_eval (hk.owns line) e
  | .ret _ line, _ => (orderly_pure ()).onLine hk line
  | .exit _ line, _ => (orderly_pure ()).onLine hk line
  | .alien kind, _ => (orderly_throw (hk.scripts _)).onLine hk none

/-- Running a block writes only the variables it names, and a property only together with its
notification. -/
theorem orderly_block (hk : k.Lenient) : ∀ ss : List Stmt,
    (∀ name ∈ blockTargets ss, k.names name) → (block ss).Orderly k
  | [], _ => orderly_pure ()
  | s :: ss, h => by
    simp only [blockTargets, List.mem_append] at h
    refine orderly_world.bind fun w => ?_
    split
    · exact orderly_pure ()
    · exact (orderly_exec hk s fun name hn => h name (.inl hn)).bind fun _ =>
        orderly_block hk ss fun name hn => h name (.inr hn)

theorem orderly_firstBranch (hk : k.Lenient) (line : Line) : ∀ es : List ElseIf,
    (∀ name ∈ elseIfTargets es, k.names name) → (firstBranch line es).Orderly k
  | [], _ => orderly_pure false
  | e :: es, h => by
    simp only [elseIfTargets, List.mem_append] at h
    refine (orderly_branch hk line e fun name hn => h name (.inl hn)).bind fun found => ?_
    split
    · exact orderly_pure true
    · exact orderly_firstBranch hk line es fun name hn => h name (.inr hn)

theorem orderly_branch (hk : k.Lenient) (line : Line) : ∀ e : ElseIf,
    (∀ name ∈ e.targets, k.names name) → (branch line e).Orderly k
  | .mk test body, h => by
    refine (orderly_eval (hk.owns line) test).bind fun v => ?_
    split
    · exact (orderly_block hk body h).bind fun _ => orderly_pure true
    · exact orderly_pure false

end

theorem tidy_block (ss : List Stmt) : (block ss).Tidy :=
  orderly_block Conduct.lenient_any ss fun _ _ => trivial

/-- A source is refused for a number that cannot be read, and reported for anything else. -/
theorem orderly_parsed? {α : Type} (name : Text) {result : Except ParseFailure α}
    (h : ∀ refusal, result = .error (.refused refusal) → refusal.isUnreadable = true) :
    (parsed? name result).Orderly k := by
  unfold parsed?
  split
  · exact orderly_pure _
  · exact orderly_throw (k.arises (Fault.arises_of_isUnreadable (h _ rfl)))
  · next error =>
    have hnote : (reportMalformed name error).Orderly k :=
      (orderly_update fun w => .single (.malformed w _)).bind fun _ => orderly_report _ _
    exact hnote.bind fun _ => orderly_pure none

/-- What a session begins with once it is marked as started. -/
def begin : Script Unit := do
  match firstHandler? (← world) with
  | some key => discard (fire key)
  | none => pure ()
  (← world).components.keys.forM synchronize

section Catching

variable (hk : k.Lenient)

include hk

theorem Orderly.reporting {script : Script Bool} (h : script.Orderly k) (name : Text) :
    (reporting name script).Orderly k := by
  unfold Script.reporting
  rw [attempt_bind]
  refine h.andThen (fun result hresult => ?_) fun hfrank => absurd hfrank hk.catches
  split
  · exact orderly_pure _
  · exact (orderly_report _ _).bind fun _ => orderly_pure _
  · exact orderly_throw hresult.of_error

theorem orderly_fire (key : Text) : (fire key).Orderly k := by
  refine orderly_world.bind fun w => ?_
  split
  · exact orderly_pure _
  · exact (orderly_call key).reporting hk key

theorem orderly_runBlock (name : Text) {body : List Stmt}
    (h : ∀ target ∈ blockTargets body, k.names target) : (runBlock name body).Orderly k :=
  Orderly.reporting hk ((orderly_block hk body h).bind fun _ => orderly_pure true) name

theorem orderly_evaluateSource (source : Text) : (evaluateSource source).Orderly k := by
  have htree : (lift ((Expr.parse source).mapError .ofParse)).Orderly k := by
    cases h : Expr.parse source with
    | ok tree => exact orderly_pure tree
    | error failure =>
      cases failure with
      | malformed error => exact orderly_throw (hk.scripts _)
      | refused refusal =>
        exact orderly_throw (k.arises (Fault.arises_of_isUnreadable (Expr.isUnreadable_of_parse h)))
  exact htree.bind fun tree => orderly_eval (hk.owns none) tree

theorem orderly_begin : begin.Orderly k := by
  refine orderly_world.bind fun w => ?_
  split
  · exact (orderly_fire hk _).discard.bind fun _ => orderly_world.bind fun w =>
      Orderly.forM orderly_synchronize _
  · exact orderly_world.bind fun w => Orderly.forM orderly_synchronize _

theorem orderly_start : start.Orderly k :=
  (orderly_update fun w => .single (.started w)).bind fun _ => orderly_begin hk

variable (hall : ∀ name, k.names name)

include hall

theorem orderly_executeSource (name source : Text) : (executeSource name source).Orderly k := by
  refine (orderly_parsed? _ fun _ => isUnreadable_of_parseBody).bind fun parsed => ?_
  split
  · exact orderly_pure _
  · exact orderly_runBlock hk name fun target _ => hall target

theorem orderly_parseAndExecute (source : Text) : (parseAndExecute source).Orderly k := by
  unfold parseAndExecute
  split
  · exact orderly_block hk _ fun target _ => hall target
  · exact orderly_report _ _
  · next h => exact orderly_throw (k.arises (Fault.arises_of_isUnreadable (isUnreadable_of_parseBody h)))

end Catching

theorem orderly_updateFromUser (component property : Text) (value : Value) :
    (updateFromUser component property value).Orderly k := by
  refine fun w => orderlyAt_look ?_
  split
  · exact orderly_pure _ w
  · next h =>
    simp only [Bool.or_eq_true, Bool.not_eq_true', not_or, Bool.not_eq_false] at h
    exact (orderlyAt_setProperty h.2 _ _).bind fun _ => orderly_pure _

end Script

end FormBasic
