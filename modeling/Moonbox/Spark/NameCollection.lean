import Moonbox.Spark.Scoping

/-!
# Name collection

In a statement without captures the rewrite ends and what is collected after it is what the query
needs. That these are the free names is then a matter of the definitions that are not used.
-/

namespace Moonbox.Spark

open Moonbox.Core (TableIdentifier FunctionIdentifier)
open Fuel CTESubstitution

variable [IgnoreCase]

/-! ### Substitution -/

section Substitution

variable {defs : List (String × LogicalPlan)}

/-- Substitution at a relation of this name ends, and `ns` are the names in what it gives. -/
def Settles (defs : List (String × LogicalPlan)) (id : TableIdentifier) (ns : List Name) : Prop :=
  ∃ q, q.mentions = ns ∧ Gives (fun fuel => substituteCTE defs fuel (.unresolvedRelation id)) q

omit [IgnoreCase] in
lemma flatMap_mentions {α : Type} {f : α → List Name} {g : Name → List Name} {as bs : List α}
    (h : List.Forall₂ (fun a b => f b = (f a).flatMap g) as bs) :
    bs.flatMap f = (as.flatMap f).flatMap g := by
  induction h with
  | nil => rfl
  | cons hab _ ih => rw [List.flatMap_cons, List.flatMap_cons, List.flatMap_append, hab, ih]

/-- A node gives the results of its expressions and its children. -/
lemma gives_node {es es' : List Expression} {ps ps' : List LogicalPlan}
    (hes : Gives (fun fuel => es.mapM (substituteExpression defs fuel)) es')
    (hps : Gives (fun fuel => ps.mapM (substituteCTE defs fuel)) ps') :
    Gives (fun fuel => substituteCTE defs fuel (.node es ps)) (.node es' ps') := by
  rw [← gives_succ_iff]
  filter_upwards [hes, hps] with fuel h h'
  simp [substituteCTE, mapChildren, h, h']

/-- If substitution settles the relations in a plan, it settles the plan. -/
lemma gives_of_settles {g : Name → List Name} (hg : ∀ id, g (.function id) = [.function id]) :
    (∀ p : LogicalPlan, (∀ id, .table id ∈ p.mentions → Settles defs id (g (.table id))) →
      ∃ q, q.mentions = p.mentions.flatMap g ∧ Gives (fun fuel => substituteCTE defs fuel p) q) ∧
    ∀ e : Expression, (∀ id, .table id ∈ e.mentions → Settles defs id (g (.table id))) →
      ∃ e', e'.mentions = e.mentions.flatMap g ∧
        Gives (fun fuel => substituteExpression defs fuel e) e' := by
  suffices h : Inductive _ _ from ⟨h.plan, h.expr⟩
  exact {
    relation := fun id h => by
      obtain ⟨q, hq, hgives⟩ := h id (by simp [LogicalPlan.mentions])
      exact ⟨q, by simp [hq, LogicalPlan.mentions], hgives⟩
    withCtes := fun child ctes ih _ h => by
      obtain ⟨q, hq, hgives⟩ := ih h
      refine ⟨.withCtes q ctes, hq, gives_succ_iff.mp ?_⟩
      filter_upwards [hgives] with fuel h
      simp [substituteCTE, mapChildren, h]
    insert := fun table query ih h => by
      obtain ⟨q, hq, hgives⟩ := ih h
      refine ⟨.insertIntoTable table q, hq, gives_succ_iff.mp ?_⟩
      filter_upwards [hgives] with fuel h
      simp [substituteCTE, mapChildren, h]
    node := fun es ps hes hps h => by
      obtain ⟨es', hes', hgives⟩ := gives_mapM fun e he => hes e he fun id hid =>
        h id (by simpa [LogicalPlan.mentions] using .inl ⟨e, he, hid⟩)
      obtain ⟨ps', hps', hgives'⟩ := gives_mapM fun p hp => hps p hp fun id hid =>
        h id (by simpa [LogicalPlan.mentions] using .inr ⟨p, hp, hid⟩)
      refine ⟨.node es' ps', ?_, gives_node hgives hgives'⟩
      simp [LogicalPlan.mentions, flatMap_mentions hes', flatMap_mentions hps']
    function := fun name es hes h => by
      obtain ⟨es', hes', hgives⟩ := gives_mapM fun e he => hes e he fun id hid =>
        h id (by simpa [Expression.mentions] using ⟨e, he, hid⟩)
      refine ⟨.unresolvedFunction name es', ?_, gives_succ_iff.mp ?_⟩
      · simp [Expression.mentions, flatMap_mentions hes', hg]
      · filter_upwards [hgives] with fuel h
        simp [substituteExpression, h]
    subquery := fun p ih h => by
      obtain ⟨q, hq, hgives⟩ := ih h
      refine ⟨.subquery q, hq, gives_succ_iff.mp ?_⟩
      filter_upwards [hgives] with fuel h
      simp [substituteExpression, h]
    expression := fun es hes h => by
      obtain ⟨es', hes', hgives⟩ := gives_mapM fun e he => hes e he fun id hid =>
        h id (by simpa [Expression.mentions] using ⟨e, he, hid⟩)
      refine ⟨.node es', ?_, gives_succ_iff.mp ?_⟩
      · simp [Expression.mentions, flatMap_mentions hes']
      · filter_upwards [hgives] with fuel h
        simp [substituteExpression, h] }

lemma settles_of_find_none {id : TableIdentifier} (h : find defs id = none) :
    Settles defs id [.table id] := by
  refine ⟨.unresolvedRelation id, rfl, gives_succ_iff.mp ?_⟩
  filter_upwards with fuel
  simp [substituteCTE, h]

/-- Where no name is captured, substitution changes no name. -/
lemma gives_of_untouched {p : LogicalPlan}
    (h : ∀ id, .table id ∈ p.mentions → find defs id = none) :
    ∃ q, q.mentions = p.mentions ∧ Gives (fun fuel => substituteCTE defs fuel p) q := by
  obtain ⟨q, hq, hgives⟩ := (gives_of_settles (g := fun n => [n]) fun _ => rfl).1 p fun id hid =>
    settles_of_find_none (h id hid)
  exact ⟨q, by rw [hq, List.flatMap_singleton'], hgives⟩

/-- A definition that is put in is gone through again, which does nothing if it mentions none of
the names. -/
lemma settles_of_find_some {id : TableIdentifier} {p : LogicalPlan}
    (hfind : find defs id = some p.subqueryAlias)
    (h : ∀ id, .table id ∈ p.mentions → find defs id = none) : Settles defs id p.mentions := by
  obtain ⟨q, hq, hgives⟩ := gives_of_untouched h
  refine ⟨q.subqueryAlias, by simp [LogicalPlan.mentions, LogicalPlan.subqueryAlias, hq],
    gives_succ_iff.mp ?_⟩
  filter_upwards [hgives] with fuel h
  simp [substituteCTE, hfind, mapChildren, LogicalPlan.subqueryAlias, h]

end Substitution

/-! ### Definitions -/

section Definitions

variable {defs : List (String × LogicalPlan)} {env : List (Cte × List Name)} {all : List Cte}

/-- The resolved definitions have the names and the mentions that they should have. -/
def Resolved (defs : List (String × LogicalPlan)) (env : List (Cte × List Name)) : Prop :=
  List.Forall₂
    (fun d e => d.1 = e.1.name ∧ ∃ q : LogicalPlan, d.2 = q.subqueryAlias ∧ q.mentions = e.2)
    defs env

/-- No definition mentions one of the names. -/
def Untouched (all : List Cte) (env : List (Cte × List Name)) : Prop :=
  ∀ e ∈ env, ∀ id, .table id ∈ e.2 → ¬ Captured all id

lemma Captured.mono {ctes ctes' : List Cte} {id : TableIdentifier} (h : Captured ctes id)
    (hsub : ctes ⊆ ctes') : Captured ctes' id := by
  obtain ⟨c, hc, heq⟩ := h
  exact ⟨c, hsub hc, heq⟩

lemma find_eq_none {id : TableIdentifier} (hres : Resolved defs env)
    (h : ¬ Captured (env.map Prod.fst) id) : find defs id = none := by
  induction hres with
  | nil => rfl
  | @cons d e defs env hde _ ih =>
    have hne : IgnoreCase.equalsIgnoreCase d.1 id.table = false := by
      rw [hde.1, Bool.eq_false_iff]
      exact fun heq => h ⟨e.1, by simp, heq⟩
    have hrest : find defs id = none :=
      ih fun hc => h (hc.mono (by simp))
    simpa [find, hne] using hrest

/-- An unqualified name finds the definition that it comes down to. -/
lemma find_eq_some {id : TableIdentifier} (hres : Resolved defs env) (hid : id.database = none)
    (h : Captured (env.map Prod.fst) id) :
    ∃ e ∈ env, ∃ q : LogicalPlan, find defs id = some q.subqueryAlias ∧ q.mentions = e.2 ∧
      comesTo env (.table id) = e.2 := by
  induction hres with
  | nil =>
    obtain ⟨c, hc, _⟩ := h
    simp at hc
  | @cons d e defs env hde _ ih =>
    cases heq : IgnoreCase.equalsIgnoreCase e.1.name id.table with
    | true =>
      obtain ⟨hname, q, hq, hmentions⟩ := hde
      refine ⟨e, by simp, q, ?_, hmentions, ?_⟩
      · simp [find, hname, heq, hq]
      · simp [comesTo, Name.boundBy, hid, heq]
    | false =>
      obtain ⟨c, hc, hceq⟩ := h
      have hc : c ∈ env.map Prod.fst := by
        rw [List.map_cons, List.mem_cons] at hc
        refine hc.resolve_left ?_
        rintro rfl
        rw [heq] at hceq
        cases hceq
      obtain ⟨e', he', q, hfind, hq, hcomes⟩ := ih ⟨c, hc, hceq⟩
      refine ⟨e', by simp [he'], q, ?_, hq, ?_⟩
      · simpa [find, hde.1, heq] using hfind
      · simpa [comesTo, Name.boundBy, hid, heq] using hcomes

lemma comesTo_function (env : List (Cte × List Name)) (id : FunctionIdentifier) :
    comesTo env (.function id) = [.function id] := by
  have h : (env.find? fun d => (Name.function id).boundBy d.1.name) = none := by
    simp [Name.boundBy]
  rw [comesTo, h]

lemma comesTo_table {id : TableIdentifier} (h : ¬ Captured (env.map Prod.fst) id) :
    comesTo env (.table id) = [.table id] := by
  have hnone : (env.find? fun d => (Name.table id).boundBy d.1.name) = none := by
    rw [List.find?_eq_none]
    intro d hd hbound
    rw [Name.boundBy, Bool.and_eq_true] at hbound
    exact h ⟨d.1, List.mem_map_of_mem hd, hbound.2⟩
  rw [comesTo, hnone]

/-- A name that is unqualified if it is captured is settled. -/
lemma Resolved.settles {id : TableIdentifier} (hres : Resolved defs env)
    (huntouched : Untouched (env.map Prod.fst) env)
    (hid : Captured (env.map Prod.fst) id → id.database = none) :
    Settles defs id (comesTo env (.table id)) := by
  by_cases hc : Captured (env.map Prod.fst) id
  · obtain ⟨e, he, q, hfind, hq, hcomes⟩ := find_eq_some hres (hid hc) hc
    rw [hcomes, ← hq]
    refine settles_of_find_some hfind fun id' hid' => find_eq_none hres ?_
    exact huntouched e he id' (hq ▸ hid')
  · rw [comesTo_table hc]
    exact settles_of_find_none (find_eq_none hres hc)

lemma mem_comesTo {n n' : Name} (h : n' ∈ comesTo env n) :
    (∃ e ∈ env, n.boundBy e.1.name ∧ n' ∈ e.2) ∨
      n' = n ∧ ∀ e ∈ env, n.boundBy e.1.name = false := by
  unfold comesTo at h
  split at h
  · rename_i e hfind
    have hbound : n.boundBy e.1.name = true := by simpa using List.find?_some hfind
    exact .inl ⟨e, List.mem_of_find?_eq_some hfind, hbound, h⟩
  · rename_i hfind
    rw [List.find?_eq_none] at hfind
    exact .inr ⟨List.mem_singleton.mp h, fun e he => by simpa using hfind e he⟩

lemma Untouched.mono {ctes : List Cte} (h : Untouched all env) (hsub : ctes ⊆ all) :
    Untouched ctes env := fun e he id hid hc => h e he id hid (hc.mono hsub)

lemma expand_fst (env : List (Cte × List Name)) (ctes : List Cte) :
    (expand env ctes).map Prod.fst = env.map Prod.fst ++ ctes := by
  induction ctes generalizing env with
  | nil => simp [expand]
  | cons c ctes ih =>
    rw [expand, List.foldl_cons, ← expand, ih]
    simp

lemma resolve_gives {ctes : List Cte} (hres : Resolved defs env)
    (huntouched : Untouched all env) (hall : all = env.map Prod.fst ++ ctes)
    (hscoped : Scoped all (env.map Prod.fst) ctes) :
    ∃ defs', Resolved defs' (expand env ctes) ∧ Untouched all (expand env ctes) ∧
      Gives (fun fuel => resolve fuel defs ctes) defs' := by
  induction ctes generalizing defs env with
  | nil => exact ⟨defs, hres, huntouched, gives_some defs⟩
  | cons c ctes ih =>
    obtain ⟨hmentions, hrest⟩ := hscoped
    have hbefore : env.map Prod.fst ⊆ all := hall ▸ List.subset_append_left _ _
    obtain ⟨q, hq, hgives⟩ := (gives_of_settles (comesTo_function env)).1 c.query fun id hid =>
      hres.settles (huntouched.mono hbefore) fun hc => (hmentions id hid (hc.mono hbefore)).1
    have halias : Gives (fun fuel => substituteCTE defs fuel c.query.subqueryAlias)
        q.subqueryAlias := by
      rw [← gives_succ_iff]
      filter_upwards [hgives] with fuel h
      simp [substituteCTE, mapChildren, LogicalPlan.subqueryAlias, h]
    have hres' : Resolved (defs ++ [(c.name, q.subqueryAlias)])
        (env ++ [(c, c.query.mentions.flatMap (comesTo env))]) :=
      List.rel_append hres (.cons ⟨rfl, q, rfl, hq⟩ .nil)
    -- What the definition comes down to is from before it or was never a name of the list.
    have huntouched' : Untouched all (env ++ [(c, c.query.mentions.flatMap (comesTo env))]) := by
      intro e he id hid hc
      rcases List.mem_append.mp he with he | he
      · exact huntouched e he id hid hc
      · rw [List.mem_singleton.mp he, List.mem_flatMap] at hid
        obtain ⟨n, hn, hid⟩ := hid
        rcases mem_comesTo hid with ⟨e, he, _, hid⟩ | ⟨rfl, hfree⟩
        · exact huntouched e he id hid hc
        · obtain ⟨hdb, d, hd, heq⟩ := hmentions id hn hc
          obtain ⟨e, he, rfl⟩ := List.mem_map.mp hd
          have := hfree e he
          simp [Name.boundBy, hdb, heq] at this
    obtain ⟨defs', hres'', huntouched'', hgives'⟩ := ih hres' huntouched' (by simp [hall])
      (by simpa using hrest)
    refine ⟨defs', hres'', huntouched'', ?_⟩
    filter_upwards [halias, hgives'] with fuel h h'
    simp only [resolve, List.foldlM_cons, h, Option.bind_eq_bind, Option.bind_some,
      Option.pure_def] at h' ⊢
    exact h'

end Definitions


/-! ### The rewrite -/

omit [IgnoreCase] in
/-- The table of an insert at the root. -/
def rootTarget : LogicalPlan → List Name
  | .insertIntoTable table _ => [.table table]
  | _ => []

omit [IgnoreCase] in
lemma mem_unresolvedTables {q : LogicalPlan} {id : TableIdentifier} :
    id ∈ unresolvedTables q ↔ .table id ∈ rootTarget q ++ q.mentions := by
  cases q <;> simp [unresolvedTables, unresolvedTablesInSelect, rootTarget, mem_tables_iff.1,
    LogicalPlan.mentions]

omit [IgnoreCase] in
lemma mem_unresolvedFunctions {q : LogicalPlan} {id : FunctionIdentifier} :
    id ∈ unresolvedFunctions q ↔ .function id ∈ rootTarget q ++ q.mentions := by
  rw [unresolvedFunctions, List.mem_eraseDups, (mem_functions_iff.1 q).1]
  cases q <;> simp [rootTarget]

omit [IgnoreCase] in
lemma Resolved.isAlias {defs : List (String × LogicalPlan)} {env : List (Cte × List Name)}
    (hres : Resolved defs env) : ∀ d ∈ defs, ∃ q : LogicalPlan, d.2 = q.subqueryAlias := by
  induction hres with
  | nil => simp
  | cons hde _ ih =>
    obtain ⟨_, q, hq, _⟩ := hde
    exact List.forall_mem_cons.mpr ⟨⟨q, hq⟩, ih⟩

/-- Substitution makes no insert and takes none away. -/
lemma rootTarget_substituteCTE {defs : List (String × LogicalPlan)} {fuel : Nat}
    {p q : LogicalPlan} (halias : ∀ d ∈ defs, ∃ q : LogicalPlan, d.2 = q.subqueryAlias)
    (h : substituteCTE defs fuel p = some q) : rootTarget q = rootTarget p := by
  cases fuel with
  | zero => simp [substituteCTE] at h
  | succ fuel =>
    cases p with
    | unresolvedRelation id =>
      cases hfind : find defs id with
      | none =>
        simp only [substituteCTE, hfind, Option.some.injEq] at h
        rw [← h]
      | some d =>
        obtain ⟨x, hx, rfl⟩ := Option.map_eq_some_iff.mp hfind
        obtain ⟨r, hr⟩ := halias x (List.mem_of_find?_eq_some hx)
        simp only [substituteCTE, hfind, hr, LogicalPlan.subqueryAlias, mapChildren,
          Option.bind_eq_bind, Option.bind_eq_some_iff, Option.pure_def, Option.some.injEq] at h
        obtain ⟨ps, _, rfl⟩ := h
        rfl
    | withCtes child ctes =>
      simp only [substituteCTE, mapChildren, Option.bind_eq_bind, Option.bind_eq_some_iff,
        Option.pure_def, Option.some.injEq] at h
      obtain ⟨child', _, rfl⟩ := h
      rfl
    | insertIntoTable table query =>
      simp only [substituteCTE, mapChildren, Option.bind_eq_bind, Option.bind_eq_some_iff,
        Option.pure_def, Option.some.injEq] at h
      obtain ⟨query', _, rfl⟩ := h
      rfl
    | node es ps =>
      simp only [substituteCTE, mapChildren, Option.bind_eq_bind, Option.bind_eq_some_iff,
        Option.pure_def, Option.some.injEq] at h
      obtain ⟨es', _, ps', _, rfl⟩ := h
      rfl

/-- Without captures the rewrite ends, and what the query needs is left. -/
lemma rewrite_gives (p : LogicalPlan) (h : p.CaptureFree) :
    ∃ q, (q.mentions = p.needed ∧ rootTarget q = p.target) ∧
      Gives (fun fuel => rewrite fuel p) q := by
  suffices hind : Inductive
      (fun p => p.CaptureFree → ∃ q, (q.mentions = p.needed ∧ rootTarget q = p.target) ∧
        Gives (fun fuel => rewrite fuel p) q) (fun _ => True) from hind.plan p h
  exact {
    relation := fun id _ => ⟨_, ⟨rfl, rfl⟩, gives_some _⟩
    withCtes := fun child ctes ih _ h => by
      obtain ⟨hchild, hqualified, hscoped, -⟩ := h
      obtain ⟨q, ⟨hq, htarget⟩, hgives⟩ := ih hchild
      have hnone : Untouched ctes [] := by simp [Untouched]
      obtain ⟨defs, hres, huntouched, hdefs⟩ := resolve_gives .nil hnone rfl hscoped
      have hnames : (expand [] ctes).map Prod.fst = ctes := expand_fst [] ctes
      obtain ⟨q', hq', hgives'⟩ := (gives_of_settles (comesTo_function _)).1 q fun id hid =>
        hres.settles (hnames.symm ▸ huntouched) fun hc =>
          hqualified id (hq ▸ hid) (hnames ▸ hc)
      have hsub : Gives (fun fuel => rewrite fuel (.withCtes child ctes)) q' := by
        filter_upwards [hgives, hdefs, hgives'] with fuel h h' h''
        rw [rewrite] at h ⊢
        simp [apply, h, h', h'']
      obtain ⟨fuel, hfuel⟩ := hgives'.exists
      refine ⟨q', ⟨?_, ?_⟩, hsub⟩
      · rw [hq', hq, LogicalPlan.needed]
      · rw [rootTarget_substituteCTE hres.isAlias hfuel, htarget, LogicalPlan.target]
    insert := fun table query ih h => by
      obtain ⟨q, ⟨hq, -⟩, hgives⟩ := ih h
      refine ⟨.insertIntoTable table q, ⟨hq, rfl⟩, ?_⟩
      filter_upwards [hgives] with fuel h
      rw [rewrite] at h ⊢
      simp [apply, h]
    node := fun es ps _ hps h => by
      obtain ⟨-, hfree⟩ := h
      rw [plansCaptureFree_iff] at hfree
      obtain ⟨ps', hps', hgives⟩ := gives_mapM fun p hp => hps p hp (hfree p hp)
      refine ⟨.node es ps', ⟨?_, rfl⟩, ?_⟩
      · have hneeded : ps'.flatMap LogicalPlan.mentions = ps.flatMap LogicalPlan.needed := by
          clear hgives hps hfree
          induction hps' with
          | nil => rfl
          | cons h _ ih => rw [List.flatMap_cons, List.flatMap_cons, h.1, ih]
        simp [LogicalPlan.mentions, LogicalPlan.needed, hneeded]
      · filter_upwards [hgives] with fuel h
        have h : ps.mapM (apply fuel) = some ps' := h
        simp [rewrite, apply, h]
    function := fun _ _ _ => trivial
    subquery := fun _ _ => trivial
    expression := fun _ _ => trivial }

/-! ### What is needed is free -/

lemma mentions_free :
    (∀ p : LogicalPlan, p.BindsNothing → ∀ n ∈ p.mentions, ∀ scope, n.boundIn scope = false →
        n ∈ p.free scope) ∧
      ∀ e : Expression, e.BindsNothing → ∀ n ∈ e.mentions, ∀ scope, n.boundIn scope = false →
        n ∈ e.free scope := by
  suffices h : Inductive _ _ from ⟨h.plan, h.expr⟩
  exact {
    relation := fun id _ n hn scope hscope => by
      rw [LogicalPlan.mentions, List.mem_singleton] at hn
      subst hn
      simp [LogicalPlan.free, hscope]
    withCtes := fun child ctes ih _ h n hn scope hscope => by
      obtain ⟨hchild, hbinds⟩ := h
      have hctes : n.boundIn (ctes.map Cte.name ++ scope) = false := by
        rw [Name.boundIn] at hscope ⊢
        rw [List.any_append, hscope, Bool.or_false]
        simpa using hbinds n hn
      rw [LogicalPlan.free, List.mem_append]
      exact .inr (ih hchild n hn _ hctes)
    insert := fun table query ih h n hn scope hscope =>
      List.mem_cons_of_mem _ (ih h n hn scope hscope)
    node := fun es ps hes hps h n hn scope hscope => by
      obtain ⟨hbindes, hbindps⟩ := h
      rw [expressionsBindNothing_iff] at hbindes
      rw [plansBindNothing_iff] at hbindps
      simp only [LogicalPlan.mentions, LogicalPlan.free, mentionsInExpressions_eq,
        mentionsInPlans_eq, freeInExpressions_eq, freeInPlans_eq, List.mem_append,
        List.mem_flatMap] at hn ⊢
      rcases hn with ⟨e, he, hn⟩ | ⟨p, hp, hn⟩
      · exact .inl ⟨e, he, hes e he (hbindes e he) n hn scope hscope⟩
      · exact .inr ⟨p, hp, hps p hp (hbindps p hp) n hn scope hscope⟩
    function := fun name es hes h n hn scope hscope => by
      rw [Expression.BindsNothing, expressionsBindNothing_iff] at h
      simp only [Expression.mentions, Expression.free, mentionsInExpressions_eq,
        freeInExpressions_eq, List.mem_cons, List.mem_flatMap] at hn ⊢
      rcases hn with rfl | ⟨e, he, hn⟩
      · exact .inl rfl
      · exact .inr ⟨e, he, hes e he (h e he) n hn scope hscope⟩
    subquery := fun p ih h n hn scope hscope => ih h n hn scope hscope
    expression := fun es hes h n hn scope hscope => by
      rw [Expression.BindsNothing, expressionsBindNothing_iff] at h
      simp only [Expression.mentions, Expression.free, mentionsInExpressions_eq,
        freeInExpressions_eq, List.mem_flatMap] at hn ⊢
      obtain ⟨e, he, hn⟩ := hn
      exact ⟨e, he, hes e he (h e he) n hn scope hscope⟩ }

/-- What a used definition comes down to is free in a definition, or comes from before. `outer` is
what surrounds the `With`, `scope` has the names of the definitions before as well. -/
lemma mem_expand {child : LogicalPlan} {all ctes : List Cte} {env : List (Cte × List Name)}
    {outer scope : List String} (hall : all = env.map Prod.fst ++ ctes)
    (hscope : ∀ name ∈ scope, name ∈ outer ∨ ∃ e ∈ env, e.1.name = name)
    (hbinds : ∀ c, Used child all c → c.query.BindsNothing) {e : Cte × List Name}
    (he : e ∈ expand env ctes) (hused : Used child all e.1) {n : Name} (hn : n ∈ e.2)
    (houter : n.boundIn outer = false) :
    (∃ e ∈ env, Used child all e.1 ∧ n ∈ e.2) ∨ n ∈ freeInDefinitions ctes scope := by
  induction ctes generalizing env scope with
  | nil => exact .inl ⟨e, he, hused, hn⟩
  | cons c ctes ih =>
    rw [expand, List.foldl_cons, ← expand] at he
    rw [freeInDefinitions, Cte.free_eq, List.mem_append]
    have hscope' : ∀ name ∈ c.name :: scope, name ∈ outer ∨
        ∃ e ∈ env ++ [(c, c.query.mentions.flatMap (comesTo env))], e.1.name = name := by
      intro name hname
      rcases List.mem_cons.mp hname with rfl | hname
      · exact .inr ⟨_, List.mem_append_right _ (List.mem_singleton_self _), rfl⟩
      · exact (hscope name hname).imp_right fun ⟨e, he, heq⟩ => ⟨e, List.mem_append_left _ he, heq⟩
    rcases ih (by simp [hall]) hscope' he with ⟨e, he, hused, hn⟩ | hfree
    · rcases List.mem_append.mp he with he | he
      · exact .inl ⟨e, he, hused, hn⟩
      · -- The definition is `c`, and a name in it is of an earlier one or free.
        rw [List.mem_singleton.mp he] at hused hn
        obtain ⟨m, hm, hn⟩ := List.mem_flatMap.mp hn
        rcases mem_comesTo hn with ⟨e, he, hbound, hn⟩ | ⟨rfl, hunbound⟩
        · have hmem : e.1 ∈ all := by simp [hall, List.mem_map_of_mem he]
          exact .inl ⟨e, he, .definition hused hm hmem hbound, hn⟩
        · have hfree : n.boundIn scope = false := by
            rw [Name.boundIn, List.any_eq_false] at houter ⊢
            intro name hname
            rcases hscope name hname with hname | ⟨e, he, rfl⟩
            · exact houter name hname
            · simp [hunbound e he]
          exact .inr (.inl (mentions_free.1 _ (hbinds c hused) n hm scope hfree))
    · exact .inr (.inr hfree)

lemma needed_free (p : LogicalPlan) (h : p.CaptureFree) {n : Name} (hn : n ∈ p.needed) :
    n ∈ p.freeNames := by
  suffices hind : Inductive
      (fun p => p.CaptureFree → ∀ n ∈ p.needed, ∀ scope, n.boundIn scope = false →
        n ∈ p.free scope) (fun _ => True) from hind.plan p h n hn [] rfl
  exact {
    relation := fun id _ n hn scope hscope => by
      rw [LogicalPlan.needed, List.mem_singleton] at hn
      subst hn
      simp [LogicalPlan.free, hscope]
    withCtes := fun child ctes ih _ h n hn scope hscope => by
      obtain ⟨hchild, -, -, hbinds⟩ := h
      rw [LogicalPlan.needed, List.mem_flatMap] at hn
      obtain ⟨m, hm, hn⟩ := hn
      rw [LogicalPlan.free, List.mem_append]
      rcases mem_comesTo hn with ⟨e, he, hbound, hn⟩ | ⟨rfl, hunbound⟩
      · have hmem : e.1 ∈ (expand [] ctes).map Prod.fst := List.mem_map_of_mem he
        rw [expand_fst, List.map_nil, List.nil_append] at hmem
        rcases mem_expand rfl (fun _ h => .inl h) hbinds he (.query hm hmem hbound) hn hscope with
          ⟨_, h, _⟩ | hfree
        · cases h
        · exact .inl hfree
      · refine .inr (ih hchild n hm _ ?_)
        rw [Name.boundIn] at hscope ⊢
        rw [List.any_append, hscope, Bool.or_false, List.any_map, List.any_eq_false]
        intro c hc
        have hc : c ∈ (expand [] ctes).map Prod.fst := (expand_fst [] ctes).symm ▸ hc
        obtain ⟨e, he, rfl⟩ := List.mem_map.mp hc
        simp [hunbound e he]
    insert := fun table query ih h n hn scope hscope =>
      List.mem_cons_of_mem _ (ih h n hn scope hscope)
    node := fun es ps _ hps h n hn scope hscope => by
      obtain ⟨hbinds, hfree⟩ := h
      rw [plansCaptureFree_iff] at hfree
      simp only [LogicalPlan.needed, LogicalPlan.free, neededInPlans_eq, freeInExpressions_eq,
        freeInPlans_eq, List.mem_append, List.mem_flatMap] at hn ⊢
      rcases hn with ⟨e, he, hn⟩ | ⟨p, hp, hn⟩
      · exact .inl ⟨e, he, mentions_free.2 e (hbinds e he) n hn scope hscope⟩
      · exact .inr ⟨p, hp, hps p hp (hfree p hp) n hn scope hscope⟩
    function := fun _ _ _ => trivial
    subquery := fun _ _ => trivial
    expression := fun _ _ => trivial }

lemma target_free (p : LogicalPlan) {n : Name} (hn : n ∈ p.target) : n ∈ p.freeNames := by
  suffices hind : Inductive (fun p => n ∈ p.target → ∀ scope, n ∈ p.free scope)
      (fun _ => True) from hind.plan p hn []
  exact {
    relation := fun id h => by simp [LogicalPlan.target] at h
    withCtes := fun child ctes ih _ h scope => by
      rw [LogicalPlan.free, List.mem_append]
      exact .inr (ih h _)
    insert := fun table query _ h scope => by
      rw [LogicalPlan.target, List.mem_singleton] at h
      simp [LogicalPlan.free, h]
    node := fun es ps _ _ h => by simp [LogicalPlan.target] at h
    function := fun _ _ _ => trivial
    subquery := fun _ _ => trivial
    expression := fun _ _ => trivial }

/-- `SELECT * FROM` a table. -/
private def selectFrom (id : TableIdentifier) : LogicalPlan := .node [] [.unresolvedRelation id]

/-- A definition that reads what its own name captures is put into itself without end. -/
lemma substituteCTE_loops {defs : List (String × LogicalPlan)} {id : TableIdentifier}
    (h : find defs id = some (selectFrom id).subqueryAlias) (fuel : Nat) :
    substituteCTE defs fuel (selectFrom id) = none := by
  induction fuel using Nat.strong_induction_on with
  | _ fuel ih =>
    rcases fuel with _ | _ | fuel
    · rfl
    · rfl
    · have hstep : substituteCTE defs (fuel + 1) (.unresolvedRelation id) = none := by
        have := ih fuel (by omega)
        simp [substituteCTE, h, mapChildren, LogicalPlan.subqueryAlias, this]
      have hchildren : [LogicalPlan.unresolvedRelation id].mapM (substituteCTE defs (fuel + 1)) =
          none := by
        simp [hstep]
      simp [selectFrom, substituteCTE, mapChildren, hchildren]

lemma rewrite_loops {name : String} {id : TableIdentifier}
    (h : IgnoreCase.equalsIgnoreCase name id.table = true) (fuel : Nat) :
    rewrite fuel (.withCtes (selectFrom id) [.mk name (selectFrom id)]) = none := by
  have hresolve : resolve fuel [] [.mk name (selectFrom id)] = none ∨
      resolve fuel [] [.mk name (selectFrom id)] =
        some [(name, (selectFrom id).subqueryAlias)] := by
    rcases fuel with _ | _ | _ | fuel
    · exact .inl rfl
    · exact .inl rfl
    · exact .inl rfl
    · exact .inr rfl
  have hfind : find [(name, (selectFrom id).subqueryAlias)] id =
      some (selectFrom id).subqueryAlias := by
    simp [find, h]
  have hchild : apply fuel (selectFrom id) = some (selectFrom id) := rfl
  rcases hresolve with hresolve | hresolve
  · simp [rewrite, apply, hresolve]
  · simp [rewrite, apply, hresolve, hchild, substituteCTE_loops hfind]

end Moonbox.Spark
