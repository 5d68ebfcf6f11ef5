import TextTemplate.Proofs.History
import TextTemplate.Proofs.Rendering

/-! Built-in arguments that fail leave no trace in an output. A run that renders no other ones
amounts to the same run with nothing in the place of each failing rendering, and for each failing
placeholder only the loss of the pending alignment. -/
namespace TextTemplate

/-- A floating-point number fails before it inserts anything. -/
theorem Rendering.ofFloat_eq_failing {f : FloatFormat} {x : BinaryFloat f} {spec : Text}
    {cause : SpecError} (h : (ofFloat x spec).failure = some cause) :
    ofFloat x spec = failing cause := by
  obtain ⟨hpoint, hprecision⟩ := failure_ofFloat_eq_some_iff.mp h
  have hmark := scientificMark?_of_point hpoint
  obtain ⟨t, rfl⟩ := List.head?_eq_some_iff.mp hpoint
  simp only [ofFloat, hmark, hprecision]

/-- Only floating-point numbers fail, however they are held. -/
theorem Argument.rendering_eq_failing {a : Argument} {spec : Text} {cause : SpecError}
    (h : a.isBuiltIn = true) (hfailure : (a.rendering spec).failure = some cause) :
    a.rendering spec = .failing cause := by
  have hfloat := ((failure_rendering_eq_some_iff h).mp hfailure).1
  induction a with
  | float x => exact Rendering.ofFloat_eq_failing hfailure
  | reference a ih => exact ih h hfailure hfloat
  | boxed a ih => exact ih h hfailure hfloat
  | value v =>
    cases v with
    | float x => exact Rendering.ofFloat_eq_failing hfailure
    | bool | integer | text => cases hfloat
  | bool | integer | text | display | custom => cases hfloat

namespace Operation

def argument? : Operation → Option Argument
  | .render argument _ => some argument
  | .resolve store template span => ((template.slice? span).bind store.addressed?).map Prod.snd
  | _ => none

/-- Whether an operation renders no argument with a rule of its own. -/
def isBuiltIn (operation : Operation) : Bool := operation.argument?.all Argument.isBuiltIn

/-- What a failing operation amounts to: nothing, or for a placeholder the end of the pending
alignment. -/
def remainder : Operation → List Operation
  | .resolve _ _ _ => [.clearPending]
  | _ => []

/-- Whether an operation fails, on every output alike. -/
def fails (operation : Operation) : Bool := (Output.empty.perform operation).2.isSome

/-- An operation, or what it amounts to if it fails. -/
def settled (operation : Operation) : List Operation :=
  if operation.fails then operation.remainder else [operation]

end Operation

namespace Output

variable {o : Output} {operation : Operation} {operations : List Operation} {fault : Fault}

/-- What each operation of a run leaves and which fault it reports, in order. -/
def outcomes (o : Output) : List Operation → List (Output × Option Fault)
  | [] => []
  | operation :: operations => o.perform operation :: (o.perform operation).1.outcomes operations

/-- Neither the text nor the pending alignment decides whether an operation fails. -/
theorem perform_snd_eq (o o' : Output) (operation : Operation) :
    (o.perform operation).2 = (o'.perform operation).2 := by
  cases operation with
  | padNext | clearPending | push | literal | render => rfl
  | resolve store template span =>
    cases hbody : template.slice? span with
    | none => simp only [perform, hbody]
    | some body =>
      cases haddressed : store.addressed? body with
      | none =>
        simp only [perform, hbody, resolve_of_addressed_eq_none _ haddressed]
      | some found =>
        obtain ⟨p, argument⟩ := found
        simp only [perform, hbody, resolve_of_addressed_eq_some _ haddressed]

theorem fails_iff (o : Output) :
    operation.fails = true ↔ ∃ fault, (o.perform operation).2 = some fault := by
  rw [Operation.fails, perform_snd_eq empty o, Option.isSome_iff_exists]

theorem render_eq_self {a : Argument} {spec : Text} {cause : SpecError} (h : a.isBuiltIn = true)
    (hfailure : (o.render (a.rendering spec)).2 = some cause) :
    (o.render (a.rendering spec)).1 = o := by
  rw [Argument.rendering_eq_failing h hfailure]
  rfl

/-- A placeholder whose built-in argument fails does nothing but drop the pending alignment. -/
theorem perform_resolve_eq_clearPending {store : Store} {template body : Text} {span : Span}
    {p : Placeholder} {a : Argument} (hbody : template.slice? span = some body)
    (haddressed : store.addressed? body = some (p, a)) (h : a.isBuiltIn = true)
    (hfault : (o.perform (.resolve store template span)).2 = some fault) :
    (o.perform (.resolve store template span)).1 = o.clearPending := by
  simp only [perform, hbody, resolve_of_addressed_eq_some _ haddressed, Option.map_map,
    Option.map_eq_some_iff] at hfault
  obtain ⟨cause, hcause, -⟩ := hfault
  rw [perform_resolve_of_addressed_eq_some o hbody haddressed,
    Argument.rendering_eq_failing h hcause]
  rfl

/-- One step: an operation of built-in arguments leaves what is left of it. -/
theorem performAll_settled (h : operation.isBuiltIn = true) :
    o.performAll operation.settled = (o.perform operation).1 := by
  unfold Operation.settled
  split
  · next hfails =>
    obtain ⟨fault, hfault⟩ := (fails_iff o).mp hfails
    cases operation with
    | padNext | clearPending | push | literal => cases hfault
    | render a spec =>
      obtain ⟨cause, hcause, -⟩ := Option.map_eq_some_iff.mp hfault
      exact (render_eq_self h hcause).symm
    | resolve store template span =>
      cases hbody : template.slice? span with
      | none => simp [perform, hbody] at hfault
      | some body =>
        cases haddressed : store.addressed? body with
        | none => simp [perform, hbody, resolve_of_addressed_eq_none _ haddressed] at hfault
        | some found =>
          obtain ⟨p, a⟩ := found
          have ha : a.isBuiltIn = true := by
            simpa [Operation.isBuiltIn, Operation.argument?, hbody, haddressed] using h
          exact (perform_resolve_eq_clearPending hbody haddressed ha hfault).symm
  · rfl

theorem performAll_append (o : Output) (before after : List Operation) :
    o.performAll (before ++ after) = (o.performAll before).performAll after :=
  List.foldl_append

theorem performAll_flatMap_settled (h : ∀ operation ∈ operations, operation.isBuiltIn = true) :
    o.performAll (operations.flatMap Operation.settled) = o.performAll operations := by
  induction operations generalizing o with
  | nil => rfl
  | cons operation operations ih =>
    rw [List.flatMap_cons, performAll_append, performAll_settled (h operation List.mem_cons_self),
      ih fun operation hmem => h operation (List.mem_cons_of_mem _ hmem)]
    rfl

theorem fails_eq_false_of_mem_settled (h : operation ∈ operations.flatMap Operation.settled) :
    operation.fails = false := by
  obtain ⟨origin, -, hmem⟩ := List.mem_flatMap.mp h
  unfold Operation.settled at hmem
  split at hmem
  · cases origin with
    | resolve store template span =>
      obtain rfl := List.mem_singleton.mp hmem
      rfl
    | padNext | clearPending | push | literal | render => cases hmem
  · next hfails =>
    obtain rfl := List.mem_singleton.mp hmem
    exact Bool.eq_false_iff.mpr hfails

/-- A built-in argument that fails leaves the output as it was, whatever was written and whatever is
pending. A placeholder of such an argument only drops the pending alignment, so that all that
follows goes as if this had been asked for in its place. A whole run of built-in arguments writes
what it writes without its failures. -/
theorem failing_builtIn_leaves_no_trace :
    (∀ (o : Output) (a : Argument) (spec : Text) (cause : SpecError), a.isBuiltIn = true →
      (o.render (a.rendering spec)).2 = some cause → (o.render (a.rendering spec)).1 = o) ∧
    (∀ (o : Output) (store : Store) (template : Text) (span : Span) (body : Text) (p : Placeholder)
      (a : Argument) (fault : Fault), template.slice? span = some body →
      store.addressed? body = some (p, a) →
      a.isBuiltIn = true → (o.perform (.resolve store template span)).2 = some fault →
      let written := (o.perform (.resolve store template span)).1
      written.text = o.text ∧ written.pending = .none ∧
        ∀ operations, written.outcomes operations =
          (o.perform .clearPending).1.outcomes operations) ∧
    ∀ (o : Output) (operations : List Operation),
      (∀ operation ∈ operations, operation.isBuiltIn = true) →
      o.performAll (operations.flatMap Operation.settled) = o.performAll operations ∧
        ∀ operation ∈ operations.flatMap Operation.settled,
          ∀ o : Output, (o.perform operation).2 = none := by
  refine ⟨fun o a spec cause h hfailure => render_eq_self h hfailure, ?_, ?_⟩
  · intro o store template span body p a fault hbody haddressed h hfault written
    have hwritten : written = o.clearPending :=
      perform_resolve_eq_clearPending hbody haddressed h hfault
    rw [hwritten]
    exact ⟨text_clearPending, pending_clearPending, fun _ => rfl⟩
  · intro o operations h
    refine ⟨performAll_flatMap_settled h, ?_⟩
    intro operation hmem o
    have hfails := fails_eq_false_of_mem_settled hmem
    rw [Operation.fails, perform_snd_eq empty o] at hfails
    simpa using hfails

theorem failing_builtIn_leaves_no_trace_of_held_float :
    let a := Argument.boxed (.reference (.value (.float (.finite false (.zero .double)))))
    let o : Output := ⟨"é".toList, .right 3⟩
    let resolve := Operation.resolve ⟨[a]⟩ "é\x7b0,-9:.yf\x7d".toList ⟨3, 11⟩
    let operations := [.render a ".yf".toList, resolve, .push "!".toList]
    (o.render (a.rendering ".yf".toList)).1 = o ∧
      ((o.perform resolve).1.text = o.text ∧ (o.perform resolve).1.pending = .none ∧
        ∀ later, (o.perform resolve).1.outcomes later =
          (o.perform .clearPending).1.outcomes later) ∧
      o.performAll [.clearPending, .push "!".toList] = o.performAll operations := by
  intro a o resolve operations
  have hrun := (failing_builtIn_leaves_no_trace.2.2 o operations (by decide +kernel)).1
  exact ⟨failing_builtIn_leaves_no_trace.1 o a ".yf".toList (.notANumber "y".toList) rfl rfl,
    failing_builtIn_leaves_no_trace.2.1 o ⟨[a]⟩ "é\x7b0,-9:.yf\x7d".toList ⟨3, 11⟩ "0,-9:.yf".toList
      ⟨some 0, .left 9, ".yf".toList⟩ a (.template ⟨⟨8, 11⟩, ".yf".toList, .notANumber "y".toList⟩)
      rfl rfl rfl rfl,
    hrun⟩

end Output

end TextTemplate
