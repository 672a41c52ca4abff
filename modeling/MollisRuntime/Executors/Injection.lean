import Mathlib.Data.List.Nodup
import MollisRuntime.Executors.FunctionExecutor

/-!
Which calls come through the injection unchanged. An optional `*args` or `**kwargs` is taken
for a parameter that must be resolved, and extra keyword arguments are not passed on; where
neither is in the way, the function gets what the call alone would have given it.
-/
namespace MollisRuntime.Executors.Injection

open Ordered

variable {ν : Type}

/-- The same for the function: a dictionary has no order for it. -/
def Bound.Same : Bound ν → Bound ν → Prop
  | .value v, .value w => v = w
  | .noPositional, .noPositional => True
  | .keywords d, .keywords e => ∀ k, d.get? k = e.get? k
  | _, _ => False

theorem Bound.Same.refl (b : Bound ν) : b.Same b := by
  cases b with
  | value v => exact rfl
  | noPositional => trivial
  | keywords d => exact fun _ => rfl

namespace Signature

variable {sig : Signature ν} {kwargs : Dict String ν}

section Binding

theorem eq_of_name {p q : Parameter ν} (hp : p ∈ sig.parameters) (hq : q ∈ sig.parameters)
    (h : p.name = q.name) : p = q := List.inj_on_of_nodup_map sig.distinct hp hq h

theorem mem_keywordNames_iff {p : Parameter ν} (hp : p ∈ sig.parameters) :
    p.name ∈ sig.keywordNames ↔ p.kind = .keyword := by
  rw [keywordNames, List.mem_map]
  constructor
  · rintro ⟨q, hq, hname⟩
    obtain ⟨hq, hkind⟩ := List.mem_filter.mp hq
    rw [← eq_of_name hq hp hname]
    exact of_decide_eq_true hkind
  · exact fun hkind => ⟨p, List.mem_filter.mpr ⟨hp, decide_eq_true hkind⟩, rfl⟩

theorem mem_names {p : Parameter ν} (hp : p ∈ sig.parameters) : p.name ∈ sig.names :=
  List.mem_map_of_mem hp

theorem keywordNames_subset : sig.keywordNames ⊆ sig.names :=
  List.map_subset _ (List.filter_subset_self _)

theorem get?_extras (k : String) :
    (sig.extras kwargs).get? k = if k ∈ sig.keywordNames then none else kwargs.get? k :=
  Dict.get?_foldl_erase _ _ _

/-- The keyword arguments are those that Python takes. -/
structure Accepts (sig : Signature ν) (kwargs : Dict String ν) : Prop where
  extra : ∀ k, k ∉ sig.keywordNames → kwargs.get? k ≠ none →
    ∃ p ∈ sig.parameters, p.kind = .varKeyword
  given : ∀ p ∈ sig.parameters, p.kind = .keyword → kwargs.get? p.name ≠ none ∨ p.default ≠ none

theorem isNone_bound_iff {p : Parameter ν} :
    (sig.bound kwargs p).isNone = true ↔
      p.kind = .keyword ∧ kwargs.get? p.name = none ∧ p.default = none := by
  unfold bound
  cases hkind : p.kind with
  | keyword => simp
  | _ => simp

theorem unbound_iff : sig.unbound kwargs = [] ↔
    ∀ p ∈ sig.parameters, p.kind = .keyword → kwargs.get? p.name ≠ none ∨ p.default ≠ none := by
  rw [unbound, List.filter_eq_nil_iff]
  refine forall₂_congr fun p _ => ?_
  rw [isNone_bound_iff]
  tauto

theorem extra_iff :
    ¬ ((sig.extras kwargs).keys ≠ [] ∧ ∀ p ∈ sig.parameters, p.kind ≠ .varKeyword) ↔
      ∀ k, k ∉ sig.keywordNames → kwargs.get? k ≠ none →
        ∃ p ∈ sig.parameters, p.kind = .varKeyword := by
  have hkeys (k : String) : k ∈ (sig.extras kwargs).keys ↔
      k ∉ sig.keywordNames ∧ kwargs.get? k ≠ none := by
    rw [Dict.mem_keys_iff, get?_extras, ← Option.ne_none_iff_exists']
    by_cases hk : k ∈ sig.keywordNames <;> simp [hk]
  constructor
  · intro h k hk hget
    by_contra hnone
    refine h ⟨List.ne_nil_of_mem ((hkeys k).mpr ⟨hk, hget⟩), fun p hp hkind => ?_⟩
    exact hnone ⟨p, hp, hkind⟩
  · rintro h ⟨hne, hnone⟩
    obtain ⟨k, hk⟩ := List.exists_mem_of_ne_nil _ hne
    obtain ⟨p, hp, hkind⟩ := h k ((hkeys k).mp hk).1 ((hkeys k).mp hk).2
    exact hnone p hp hkind

theorem Accepts.bind (h : sig.Accepts kwargs) : ∃ bindings, sig.bind kwargs = .ok bindings := by
  unfold Signature.bind
  rw [if_neg (extra_iff.mpr h.extra), unbound_iff.mpr h.given]
  exact ⟨_, rfl⟩

theorem accepts_of_bind {bindings : Bindings ν} (h : sig.bind kwargs = .ok bindings) :
    sig.Accepts kwargs ∧ ∀ p ∈ sig.parameters, ∃ b, sig.bound kwargs p = some b ∧
      bindings.get? p.name = some b := by
  unfold Signature.bind at h
  split at h
  next => cases h
  next hextra =>
    split at h
    next hunbound =>
      cases h
      have hgiven := unbound_iff.mp (List.isEmpty_iff.mp hunbound)
      refine ⟨⟨extra_iff.mp hextra, hgiven⟩, fun p hp => ?_⟩
      cases hbound : sig.bound kwargs p with
      | none =>
        have hisNone : (sig.bound kwargs p).isNone = true := Option.isNone_iff_eq_none.mpr hbound
        obtain ⟨hkind, hget, hdefault⟩ := isNone_bound_iff.mp hisNone
        rcases hgiven p hp hkind with h | h
        · exact absurd hget h
        · exact absurd hdefault h
      | some b =>
        refine ⟨b, rfl, (Dict.mem_entries_iff _ _ _).mp (List.mem_filterMap.mpr ⟨p, hp, ?_⟩)⟩
        rw [hbound]
        rfl
    next => cases h

end Binding

end Signature

namespace FunctionExecutor

variable {executor : FunctionExecutor ν} {context : ExecutionContext ν} {kwargs : Dict String ν}

section Injecting

/-- What a name stands for where there are no dependencies and no services. -/
def supplied (context : ExecutionContext ν) (kwargs : Dict String ν) (name : String) : Option ν :=
  (kwargs.get? name).or (if name = "context" then some context.object else none)

theorem supplied_of_given {name : String}
    (h : name = "context" → kwargs.get? "context" ≠ none) :
    supplied context kwargs name = kwargs.get? name := by
  unfold supplied
  by_cases hname : name = "context"
  · subst hname
    obtain ⟨v, hv⟩ := Option.ne_none_iff_exists'.mp (h rfl)
    rw [hv, Option.some_or]
  · rw [if_neg hname, Option.or_none]

theorem context_of_supplied {name : String} (hnone : kwargs.get? name = none)
    (h : supplied context kwargs name ≠ none) :
    name = "context" ∧ supplied context kwargs name = some context.object := by
  unfold supplied at h ⊢
  rw [hnone, Option.none_or] at h ⊢
  split at h
  next hname => exact ⟨hname, if_pos hname⟩
  next => exact absurd rfl h

variable (hdependencies : executor.dependencies = .empty)
  (hservices : ∀ name, context.service name = none)

include hdependencies hservices

theorem resolve_eq (p : Parameter ν) :
    executor.resolve context kwargs p =
      match supplied context kwargs p.name with
      | some v => .ok (some v)
      | none =>
        if p.default.isSome then .ok none
        else .error (.runtimeError
          s!"Dependency injection failed: Parameter '{p.name}' is required but not resolved.") := by
  unfold resolve supplied
  rw [hdependencies, Dict.get?_empty, hservices]
  cases kwargs.get? p.name with
  | some v => rfl
  | none => by_cases hname : p.name = "context" <;> simp [hname]

/-- What was injected, if every parameter was resolved or has a default. -/
theorem inject_ok {parameters : List (Parameter ν)}
    (h : ∀ p ∈ parameters, supplied context kwargs p.name ≠ none ∨ p.default ≠ none)
    (injected : Dict String ν) :
    ∃ injected', executor.inject context kwargs parameters injected = .ok injected' ∧
      ∀ name, injected'.get? name =
        (if name ∈ parameters.map Parameter.name then supplied context kwargs name else none).or
          (injected.get? name) := by
  induction parameters generalizing injected with
  | nil => exact ⟨injected, rfl, fun name => by simp⟩
  | cons p rest ih =>
    have hrest := ih fun q hq => h q (List.mem_cons_of_mem _ hq)
    unfold inject
    rw [resolve_eq hdependencies hservices]
    cases hp : supplied context kwargs p.name with
    | some v =>
      obtain ⟨injected', hinject, hget⟩ := hrest (injected.set p.name v)
      refine ⟨injected', hinject, fun name => ?_⟩
      rw [hget, Dict.get?_set, List.map_cons]
      by_cases hname : p.name = name
      · subst hname
        by_cases hmem : p.name ∈ rest.map Parameter.name <;> simp [hmem, hp]
      · simp [hname, Ne.symm hname]
    | none =>
      have hdefault := (h p List.mem_cons_self).resolve_left fun hne => hne hp
      obtain ⟨injected', hinject, hget⟩ := hrest injected
      refine ⟨injected', ?_, fun name => ?_⟩
      · rw [if_pos (Option.isSome_iff_ne_none.mpr hdefault)]
        exact hinject
      · rw [hget, List.map_cons]
        by_cases hname : name = p.name
        · subst hname
          simp [hp]
        · simp [hname]

theorem resolved_of_inject {parameters : List (Parameter ν)} {injected injected' : Dict String ν}
    (h : executor.inject context kwargs parameters injected = .ok injected') :
    ∀ p ∈ parameters, supplied context kwargs p.name ≠ none ∨ p.default ≠ none := by
  induction parameters generalizing injected with
  | nil => exact fun p hp => absurd hp List.not_mem_nil
  | cons p rest ih =>
    unfold inject at h
    rw [resolve_eq hdependencies hservices] at h
    cases hp : supplied context kwargs p.name with
    | some v =>
      rw [hp] at h
      exact List.forall_mem_cons.mpr ⟨.inl (by simp [hp]), ih h⟩
    | none =>
      rw [hp] at h
      by_cases hdefault : p.default.isSome
      · simp only [if_pos hdefault] at h
        exact List.forall_mem_cons.mpr ⟨.inr (Option.isSome_iff_ne_none.mp hdefault), ih h⟩
      · simp only [if_neg hdefault] at h
        cases h

end Injecting

end FunctionExecutor

/-- The function gets the same arguments, but for a parameter "context" that is not given. -/
def SameCall (sig : Signature ν) (kwargs : Dict String ν) (bindings bindings' : Bindings ν) :
    Prop :=
  ∀ p ∈ sig.parameters, (p.name = "context" → kwargs.get? "context" ≠ none) →
    ∃ x y, bindings.get? p.name = some x ∧ bindings'.get? p.name = some y ∧ x.Same y

/-- An `*args` is given by its name; so is a `**kwargs`, and then there is no other extra
keyword argument, or it is called "context". -/
structure Injectable (sig : Signature ν) (kwargs : Dict String ν) : Prop where
  varPositional : ∀ p ∈ sig.parameters, p.kind = .varPositional → kwargs.get? p.name ≠ none
  varKeyword : ∀ p ∈ sig.parameters, p.kind = .varKeyword →
    if kwargs.get? p.name = none then p.name = "context"
    else ∀ k ∈ kwargs.keys, k ∈ sig.names

section Calls

open FunctionExecutor Signature

variable {sig : Signature ν} {context : ExecutionContext ν} {kwargs injected : Dict String ν}

/-- A parameter that is not passed by keyword is given, or it is called "context". -/
theorem Injectable.named (h : Injectable sig kwargs) {p : Parameter ν} (hp : p ∈ sig.parameters)
    (hkind : p.kind ≠ .keyword) : kwargs.get? p.name ≠ none ∨
      p.kind = .varKeyword ∧ p.name = "context" := by
  cases hp' : p.kind with
  | keyword => exact absurd hp' hkind
  | varPositional => exact .inl (h.varPositional p hp hp')
  | varKeyword =>
    have hvar := h.varKeyword p hp hp'
    by_cases hget : kwargs.get? p.name = none
    · exact .inr ⟨rfl, (if_pos hget).mp hvar⟩
    · exact .inl hget

theorem Injectable.resolved (h : Injectable sig kwargs) (haccepts : sig.Accepts kwargs) :
    ∀ p ∈ sig.parameters, supplied context kwargs p.name ≠ none ∨ p.default ≠ none := by
  intro p hp
  have hsupplied (hget : kwargs.get? p.name ≠ none) : supplied context kwargs p.name ≠ none := by
    obtain ⟨v, hv⟩ := Option.ne_none_iff_exists'.mp hget
    rw [supplied, hv, Option.some_or]
    exact Option.some_ne_none v
  by_cases hkind : p.kind = .keyword
  · exact (haccepts.given p hp hkind).imp_left hsupplied
  · rcases h.named hp hkind with hget | ⟨-, hname⟩
    · exact .inl (hsupplied hget)
    · refine .inl ?_
      rw [supplied, if_pos hname]
      cases kwargs.get? p.name <;> simp

section Injected

variable (hinjected : ∀ name, injected.get? name =
  if name ∈ sig.names then supplied context kwargs name else none)

include hinjected

theorem Injectable.accepts (h : Injectable sig kwargs) (haccepts : sig.Accepts kwargs) :
    sig.Accepts injected where
  extra k hk hget := by
    rw [hinjected] at hget
    split at hget
    next hname =>
      obtain ⟨p, hp, rfl⟩ := List.mem_map.mp hname
      have hkind := fun hkind => hk ((mem_keywordNames_iff hp).mpr hkind)
      rcases h.named hp hkind with hgiven | ⟨hvar, -⟩
      · exact haccepts.extra p.name hk hgiven
      · exact ⟨p, hp, hvar⟩
    next => exact absurd rfl hget
  given p hp hkind := by
    rw [hinjected, if_pos (mem_names hp)]
    refine (haccepts.given p hp hkind).imp_left fun hget => ?_
    obtain ⟨v, hv⟩ := Option.ne_none_iff_exists'.mp hget
    rw [supplied, hv, Option.some_or]
    exact Option.some_ne_none v

/-- The extra keyword arguments are the same where they are all named. -/
theorem Injectable.extras_eq (h : Injectable sig kwargs) {p : Parameter ν}
    (hp : p ∈ sig.parameters) (hkind : p.kind = .varKeyword) (hgiven : kwargs.get? p.name ≠ none)
    (k : String) : (sig.extras kwargs).get? k = (sig.extras injected).get? k := by
  have hnamed := (if_neg hgiven).mp (h.varKeyword p hp hkind)
  rw [get?_extras, get?_extras, hinjected]
  by_cases hkeyword : k ∈ sig.keywordNames
  · rw [if_pos hkeyword, if_pos hkeyword]
  · rw [if_neg hkeyword, if_neg hkeyword]
    split
    next hname =>
      obtain ⟨q, hq, rfl⟩ := List.mem_map.mp hname
      have hqkind := fun hqkind => hkeyword ((mem_keywordNames_iff hq).mpr hqkind)
      have hqgiven : kwargs.get? q.name ≠ none := by
        rcases h.named hq hqkind with hget | ⟨hvar, -⟩
        · exact hget
        · rwa [sig.single q hq p hp hqkind (hvar.trans hkind.symm)]
      rw [supplied_of_given fun hcontext => hcontext ▸ hqgiven]
    next hname =>
      by_contra hne
      exact hname (hnamed k ((Dict.mem_keys_iff _ _).mpr (Option.ne_none_iff_exists'.mp hne)))

theorem Injectable.same_bound (h : Injectable sig kwargs) {p : Parameter ν}
    (hp : p ∈ sig.parameters) (hgiven : p.name = "context" → kwargs.get? "context" ≠ none)
    {x y : Bound ν} (hx : sig.bound kwargs p = some x) (hy : sig.bound injected p = some y) :
    x.Same y := by
  unfold bound at hx hy
  cases hkind : p.kind with
  | keyword =>
    simp only [hkind] at hx hy
    rw [hinjected, if_pos (mem_names hp), supplied_of_given hgiven, hx] at hy
    exact Option.some.inj hy ▸ .refl x
  | varPositional =>
    simp only [hkind] at hx hy
    cases hx
    cases hy
    trivial
  | varKeyword =>
    simp only [hkind] at hx hy
    cases hx
    cases hy
    have hget : kwargs.get? p.name ≠ none := by
      rcases h.named hp (by rw [hkind]; exact ParameterKind.noConfusion) with hget | ⟨-, hname⟩
      · exact hget
      · exact hname ▸ hgiven hname
    exact h.extras_eq hinjected hp hkind hget

end Injected

/-- What the same call says of the extra keyword arguments. -/
theorem SameCall.extras_eq {bindings bindings' : Bindings ν}
    (h : SameCall sig kwargs bindings bindings') (hbind : sig.bind kwargs = .ok bindings)
    (hbind' : sig.bind injected = .ok bindings') {p : Parameter ν} (hp : p ∈ sig.parameters)
    (hkind : p.kind = .varKeyword) (hgiven : p.name = "context" → kwargs.get? "context" ≠ none)
    (k : String) : (sig.extras kwargs).get? k = (sig.extras injected).get? k := by
  obtain ⟨x, y, hx, hy, hsame⟩ := h p hp hgiven
  obtain ⟨b, hb, hget⟩ := (accepts_of_bind hbind).2 p hp
  obtain ⟨b', hb', hget'⟩ := (accepts_of_bind hbind').2 p hp
  obtain rfl := Option.some.inj (hx.symm.trans hget)
  obtain rfl := Option.some.inj (hy.symm.trans hget')
  simp only [bound, hkind, Option.some.injEq] at hb hb'
  rw [← hb, ← hb'] at hsame
  exact hsame k

/-- Whoever gets the same arguments had nothing in the way. -/
theorem SameCall.injectable {bindings bindings' : Bindings ν}
    (h : SameCall sig kwargs bindings bindings')
    (hinjected : ∀ name, injected.get? name =
      if name ∈ sig.names then supplied context kwargs name else none)
    (hresolved : ∀ p ∈ sig.parameters, supplied context kwargs p.name ≠ none ∨ p.default ≠ none)
    (hbind : sig.bind kwargs = .ok bindings) (hbind' : sig.bind injected = .ok bindings') :
    Injectable sig kwargs := by
  have hcontext {p : Parameter ν} (hp : p ∈ sig.parameters) (hkind : p.kind ≠ .keyword)
      (hnone : kwargs.get? p.name = none) :
      p.name = "context" ∧ supplied context kwargs p.name = some context.object :=
    context_of_supplied hnone
      ((hresolved p hp).resolve_right fun hne => hne (sig.noDefault p hp hkind))
  constructor
  · intro p hp hkind hnone
    have hnotKeyword : p.kind ≠ .keyword := by
      rw [hkind]
      exact ParameterKind.noConfusion
    have hnew : p.name ∉ sig.keywordNames := mt (mem_keywordNames_iff hp).mp hnotKeyword
    obtain ⟨hname, hsupplied⟩ := hcontext hp hnotKeyword hnone
    have hget : injected.get? p.name = some context.object := by
      rw [hinjected, if_pos (mem_names hp), hsupplied]
    -- the context goes to the `**kwargs`, which does not get it otherwise
    obtain ⟨q, hq, hqkind⟩ := (accepts_of_bind hbind').1.extra p.name hnew
      (hget ▸ Option.some_ne_none _)
    have hqname : q.name ≠ "context" := by
      intro hqname
      rw [eq_of_name hq hp (hqname.trans hname.symm), hkind] at hqkind
      cases hqkind
    have hextras := h.extras_eq hbind hbind' hq hqkind (fun hq => absurd hq hqname) p.name
    rw [get?_extras, get?_extras, if_neg hnew, if_neg hnew, hnone, hget] at hextras
    cases hextras
  · intro p hp hkind
    split
    next hnone => exact (hcontext hp (by rw [hkind]; exact ParameterKind.noConfusion) hnone).1
    next hgiven =>
      intro k hk
      by_contra hname
      have hnew : k ∉ sig.keywordNames := fun hk => hname (keywordNames_subset hk)
      have hextras := h.extras_eq hbind hbind' hp hkind (fun hp => hp ▸ hgiven) k
      rw [get?_extras, get?_extras, if_neg hnew, if_neg hnew, hinjected, if_neg hname] at hextras
      exact (Dict.get?_eq_none_iff _ _).mp hextras hk


variable {executor : FunctionExecutor ν} {times : Times} {payload : Payload ν}
  {functionName : String} {function : Function ν} {bindings : Bindings ν}

theorem called_run {bindings' : Bindings ν} :
    (run times function injected).called = some bindings' ↔
      function.signature.bind injected = .ok bindings' := by
  unfold run
  cases function.signature.bind injected <;> simp

/-- A registered function is run with what is injected. -/
theorem executeRequest_returns (hname : payload.functionName = some functionName)
    (hne : functionName ≠ "") (hfunction : executor.functions.get? functionName = some function)
    {execution : Execution ν} :
    executor.executeRequest context times payload = .ok execution ↔
      ∃ injected, executor.inject context (payload.kwargs.getD .empty)
        function.signature.parameters .empty = .ok injected ∧
          run times function injected = execution := by
  unfold executeRequest
  rw [hname, Option.filter_some, if_pos (decide_eq_true hne)]
  simp only [hfunction]
  cases executor.inject context (payload.kwargs.getD .empty) function.signature.parameters
    .empty <;> simp

variable (executor context times payload)

/-- Without dependencies and services, the executor makes the call that Python makes of the
keyword arguments exactly where they are injectable. -/
theorem executeRequest_calls_iff (hdependencies : executor.dependencies = .empty)
    (hservices : ∀ name, context.service name = none)
    (hname : payload.functionName = some functionName) (hne : functionName ≠ "")
    (hfunction : executor.functions.get? functionName = some function)
    (hbind : function.signature.bind (payload.kwargs.getD .empty) = .ok bindings) :
    (∃ execution bindings', executor.executeRequest context times payload = .ok execution ∧
        execution.called = some bindings' ∧
        SameCall function.signature (payload.kwargs.getD .empty) bindings bindings') ↔
      Injectable function.signature (payload.kwargs.getD .empty) := by
  simp only [executeRequest_returns hname hne hfunction]
  generalize payload.kwargs.getD .empty = kwargs at hbind ⊢
  obtain ⟨haccepts, hbound⟩ := accepts_of_bind hbind
  have hnames {injected : Dict String ν}
      (hget : ∀ name, injected.get? name =
        (if name ∈ function.signature.names then supplied context kwargs name else none).or
          (Dict.empty.get? name)) (name : String) :
      injected.get? name =
        if name ∈ function.signature.names then supplied context kwargs name else none := by
    rw [hget, Dict.get?_empty, Option.or_none]
  constructor
  · rintro ⟨_, bindings', ⟨injected, hinject, rfl⟩, hcalled, hsame⟩
    have hresolved := resolved_of_inject hdependencies hservices hinject
    obtain ⟨injected', hinject', hget⟩ := inject_ok hdependencies hservices hresolved .empty
    obtain rfl := Except.ok.inj (hinject.symm.trans hinject')
    exact hsame.injectable (hnames hget) hresolved hbind (called_run.mp hcalled)
  · intro h
    have hresolved : ∀ p ∈ function.signature.parameters,
        supplied context kwargs p.name ≠ none ∨ p.default ≠ none := h.resolved haccepts
    obtain ⟨injected, hinject, hget⟩ := inject_ok hdependencies hservices hresolved .empty
    obtain ⟨bindings', hbind'⟩ := (h.accepts (hnames hget) haccepts).bind
    refine ⟨_, bindings', ⟨injected, hinject, rfl⟩, called_run.mpr hbind', fun p hp hgiven => ?_⟩
    obtain ⟨x, hx, hxget⟩ := hbound p hp
    obtain ⟨y, hy, hyget⟩ := (accepts_of_bind hbind').2 p hp
    exact ⟨x, y, hxget, hyget, h.same_bound (hnames hget) hp hgiven hx hy⟩

theorem service_of_none {object : ν} (name : String) :
    ({ object } : ExecutionContext ν).service name = none := by
  unfold ExecutionContext.service
  split <;> rfl

/-- `def greet(name, greeting="Hello")` or `def greet(name, **kwargs)` -/
def greet (second : Parameter String) (hsecond : second.name ≠ "name")
    (hdefault : second.kind ≠ .keyword → second.default = none) : Function String where
  signature :=
    { parameters := [{ name := "name" }, second]
      distinct := by simp [hsecond.symm]
      noDefault := by simpa using hdefault
      single := by simpa using fun hkind hkeyword => absurd hkeyword hkind }
  body _ := .ok "Hello, Ada!"
  typeError _ := "TypeError"

/-- An optional greeting that is not given. -/
theorem greeting_is_optional :
    let function := greet { name := "greeting", default := some "Hello" } (by decide) (by simp)
    let executor : FunctionExecutor String := { functions := Dict.empty.set "greet" function }
    let kwargs : Dict String String := Dict.empty.set "name" "Ada"
    ∃ bindings, function.signature.bind kwargs = .ok bindings ∧
      ∃ execution bindings', executor.executeRequest { object := "context" } ⟨0, 1, 1, fun _ => ""⟩
          ⟨some "greet", some kwargs⟩ = .ok execution ∧
        execution.called = some bindings' ∧
        SameCall function.signature kwargs bindings bindings' := by
  intro function executor kwargs
  have hkeyword : ∀ p ∈ function.signature.parameters, p.kind = .keyword := by
    simp [function, greet]
  refine ⟨_, rfl, (executeRequest_calls_iff _ executor _ ⟨some "greet", some kwargs⟩ rfl
    service_of_none rfl (by decide) rfl rfl).mpr ⟨?_, ?_⟩⟩
  · intro p hp hkind
    rw [hkeyword p hp] at hkind
    cases hkind
  · intro p hp hkind
    rw [hkeyword p hp] at hkind
    cases hkind

/-- A `**kwargs` for which there is nothing: Python makes the call, and the executor takes
the parameter for one that must be resolved. -/
theorem varKeyword_is_required :
    let function := greet { name := "kwargs", kind := .varKeyword } (by decide) (by simp)
    let executor : FunctionExecutor String := { functions := Dict.empty.set "greet" function }
    let kwargs : Dict String String := Dict.empty.set "name" "Ada"
    (∃ bindings, function.signature.bind kwargs = .ok bindings) ∧
      executor.executeRequest { object := "context" } ⟨0, 1, 1, fun _ => ""⟩
          ⟨some "greet", some kwargs⟩ =
        .error (.runtimeError
          "Dependency injection failed: Parameter 'kwargs' is required but not resolved.") := by
  intro function executor kwargs
  refine ⟨⟨_, rfl⟩, ?_⟩
  rfl

end Calls

end MollisRuntime.Executors.Injection
