import Moonbox.Lib.Quotations
import Moonbox.Parser.MoonboxAstBuilder

/-!
# Quoted names

Which commands hold the names that their statements have in backquotes.
-/

namespace Moonbox.Parser

open Catalog Moonbox.Core Quotation

/-! ### Identifiers -/

namespace Identifier

def getText : Identifier → Text
  | plain word => word
  | backquoted name => ['`'] ++ double '`' name ++ ['`']

/-- What the identifier names. -/
def name : Identifier → Text
  | plain word => word
  | backquoted name => name

def IsPlain : Identifier → Prop
  | plain _ => True
  | backquoted _ => False

end Identifier

def text (i : Identifier) : String := String.ofList i.getText

def tripped (i : Identifier) : String := stringText i.getText

def named (i : Identifier) : String := String.ofList i.name

/-- The builder takes the text of some identifiers as it is and takes the quotes off others. -/
def build (ctx : Mql Identifier) : Except String Built := visit text tripped ctx

/-- What is built is the same as from the names. -/
def HoldsNames (ctx : Mql Identifier) : Prop := build ctx = visit named named ctx

/-! ### Where the names stand -/

section Names

variable {ι : Type}

mutual

def DataTypeContext.names : DataTypeContext ι → List ι
  | .array dataType => dataType.names
  | .map keyType valueType => keyType.names ++ valueType.names
  | .struct fields => fields.names
  | .primitive _ _ => []

def ColTypeListContext.names : ColTypeListContext ι → List ι
  | .nil => []
  | .cons identifier dataType colTypes => identifier :: (dataType.names ++ colTypes.names)

end

def TableIdentifierContext.names (ctx : TableIdentifierContext ι) : List ι :=
  ctx.db.toList ++ [ctx.table]

def FuncIdentifierContext.names (ctx : FuncIdentifierContext ι) : List ι :=
  ctx.db.toList ++ [ctx.func]

def TableCollectionsContext.names (ctx : TableCollectionsContext ι) : List ι :=
  ctx.db.toList ++ [ctx.table]

def PrivilegeContext.names : PrivilegeContext ι → List ι
  | .select columns | .update columns => columns.getD []
  | .insert | .delete | .truncate | .all => []

/-- The identifiers whose quotes stay. -/
def Mql.bare : Mql ι → List ι
  | .createOrganization _ name _ _ | .setOrganizationOptions name _
  | .setOrganizationComment name _ | .dropOrganization _ name _ => [name]
  | .createSa _ name org _ _ | .setSaPassword name org _ | .setSaOptions name org _
  | .dropSa _ name org => [name, org]
  | .grantGrantToUser _ name | .revokeGrantFromUser _ name | .grantGrantToGroup _ name
  | .revokeGrantFromGroup _ name | .grantPrivilegeToUsers _ name
  | .revokePrivilegeFromUsers _ name | .grantPrivilegeToGroup _ name
  | .revokePrivilegeFromGroup _ name => [name]
  | .grantResourcePrivilegeToUsers privileges tables name
  | .revokeResourcePrivilegeFromUsers privileges tables name
  | .grantResourcePrivilegeToGroup privileges tables name
  | .revokeResourcePrivilegeFromGroup privileges tables name =>
    privileges.val.flatMap PrivilegeContext.names ++ tables.names ++ [name]
  | .createUser _ name _ _ | .setUserPassword name _ | .setUserOptions name _ | .dropUser _ name
  | .createGroup _ name _ | .setGroupComment name _ | .dropGroup _ name _ => [name]
  | .addGroupUser name users | .removeGroupUser name users => name :: users.val
  | .mountTable _ _ _ columns _ => (columns.map ColTypeListContext.names).getD []
  | .setTableProperties _ _ | .unmountTable _ _ | .createView _ _ _ _ | .setViewQuery _ _
  | .dropView _ _ | .showCreateTable _ | .descTable _ _ => []
  | .mountDatabase _ name _ | .unmountDatabase _ name _ | .setDatabaseProperties name _
  | .refreshDatabase name | .createDatabase _ name _ | .setDatabaseComment name _
  | .dropDatabase _ name _ | .useDatabase name => [name]
  | .createFunction _ _ name _ _ _ | .dropFunction _ _ name | .descFunction _ name => name.names
  | .createProcedure _ name _ _ | .setProcedureQuerys name _ | .dropProcedure _ name => [name]
  | .createEvent definer _ name _ _ _ proc =>
    (definer.bind DefinerContext.user).toList ++ [name, proc]
  | .setDefiner definer name => definer.user.toList ++ [name]
  | .setEventSchedule name _ | .setEventEnable name _ | .dropEvent _ name => [name]
  | .showTables db _ | .showFunctions _ db _ => db.toList
  | .showUsersInGroup name _ | .showGrants name | .descEvent name | .descProcedure name
  | .descDatabase name | .descUser name | .descOrg name | .createTemporaryView _ _ name _ => [name]
  | .showSysInfo | .showJobs | .showRunningEvents | .showEvents _ | .showDatabase _ | .showOrgs _
  | .showSas _ | .showUsers _ | .showGroups _ | .showProcedures _ | .showSchema _ | .explain _ _
  | .statement _ => []

/-- The identifiers whose quotes are taken off: the names of tables but for privileges. -/
def Mql.stripped : Mql ι → List ι
  | .mountTable _ _ name _ _ | .setTableProperties name _ | .unmountTable _ name
  | .createView _ name _ _ | .setViewQuery name _ | .dropView _ name | .showCreateTable name
  | .descTable _ name => name.names
  | _ => []

end Names

/-! ### Visitors that take other texts -/

section Congruence

variable {ι : Type} {f f' g g' : ι → String}

lemma map_eq_iff {l : List ι} : l.map f = l.map f' ↔ ∀ i ∈ l, f i = f' i :=
  List.map_inj_left

lemma option_map_eq_iff {o : Option ι} : o.map f = o.map f' ↔ ∀ i ∈ o.toList, f i = f' i := by
  cases o with
  | none => simp
  | some i => simp

lemma visitTableIdentifier_eq_iff {ctx : TableIdentifierContext ι} :
    visitTableIdentifier g ctx = visitTableIdentifier g' ctx ↔ ∀ i ∈ ctx.names, g i = g' i := by
  simp [visitTableIdentifier, TableIdentifierContext.names, option_map_eq_iff, or_imp,
    forall_and, and_comm]

lemma visitFuncIdentifier_eq_iff {ctx : FuncIdentifierContext ι} :
    visitFuncIdentifier f ctx = visitFuncIdentifier f' ctx ↔ ∀ i ∈ ctx.names, f i = f' i := by
  simp [visitFuncIdentifier, FuncIdentifierContext.names, option_map_eq_iff, or_imp,
    forall_and, and_comm]

lemma visitTableCollections_eq_iff {ctx : TableCollectionsContext ι} :
    visitTableCollections f ctx = visitTableCollections f' ctx ↔ ∀ i ∈ ctx.names, f i = f' i := by
  simp [visitTableCollections, TableCollectionsContext.names, option_map_eq_iff, or_imp,
    forall_and, and_comm]

lemma visitIdentifierList_eq_iff {ctx : NonemptyList ι} :
    visitIdentifierList f ctx = visitIdentifierList f' ctx ↔ ∀ i ∈ ctx.val, f i = f' i := by
  rw [visitIdentifierList, visitIdentifierList, Subtype.mk.injEq, map_eq_iff]

lemma visitDefiner_eq_iff {ctx : DefinerContext ι} :
    visitDefiner f ctx = visitDefiner f' ctx ↔ ∀ i ∈ ctx.user.toList, f i = f' i :=
  option_map_eq_iff

lemma visitPrivilege_eq_iff {ctx : PrivilegeContext ι} :
    visitPrivilege f ctx = visitPrivilege f' ctx ↔ ∀ i ∈ ctx.names, f i = f' i := by
  rcases ctx with (_ | columns) | (_ | columns) | _ | _ | _ | _ <;>
    simp [visitPrivilege, PrivilegeContext.names, visitColumnIdentifiers]

lemma visitPrivilege_length (ctx : PrivilegeContext ι) :
    (visitPrivilege f ctx).length = (visitPrivilege f' ctx).length := by
  rcases ctx with (_ | columns) | (_ | columns) | _ | _ | _ | _ <;> rfl

lemma visitPrivileges_eq_iff {ctx : NonemptyList (PrivilegeContext ι)} :
    visitPrivileges f ctx = visitPrivileges f' ctx ↔
      ∀ i ∈ ctx.val.flatMap PrivilegeContext.names, f i = f' i := by
  rw [visitPrivileges, visitPrivileges, Subtype.mk.injEq]
  induction ctx.val with
  | nil => simp
  | cons p ps ih =>
    have hsplit : (p :: ps).flatMap (visitPrivilege f) = (p :: ps).flatMap (visitPrivilege f') ↔
        visitPrivilege f p = visitPrivilege f' p ∧
          ps.flatMap (visitPrivilege f) = ps.flatMap (visitPrivilege f') := by
      constructor
      · intro h
        exact List.append_inj h (visitPrivilege_length p)
      · rintro ⟨hp, hps⟩
        rw [List.flatMap_cons, List.flatMap_cons, hp, hps]
    rw [hsplit, ih, visitPrivilege_eq_iff, List.flatMap_cons]
    simp only [List.mem_append, or_imp, forall_and]

mutual

/-- The types are made with both, or with neither, and are the same if the names in them are. -/
lemma visitDataType_same : (ctx : DataTypeContext ι) →
    (∃ e, visitDataType f ctx = .error e ∧ visitDataType f' ctx = .error e) ∨
      ∃ t t', visitDataType f ctx = .ok t ∧ visitDataType f' ctx = .ok t' ∧
        (t = t' ↔ ∀ i ∈ ctx.names, f i = f' i)
  | .array dataType => by
    rcases visitDataType_same dataType with ⟨e, he, he'⟩ | ⟨t, t', ht, ht', hiff⟩
    · exact .inl ⟨e, by rw [visitDataType, he]; rfl, by rw [visitDataType, he']; rfl⟩
    · exact .inr ⟨.array t, .array t', by rw [visitDataType, ht]; rfl,
        by rw [visitDataType, ht']; rfl, by simp [hiff, DataTypeContext.names]⟩
  | .map keyType valueType => by
    rcases visitDataType_same keyType with ⟨e, he, he'⟩ | ⟨k, k', hk, hk', hkeys⟩
    · exact .inl ⟨e, by rw [visitDataType, he]; rfl, by rw [visitDataType, he']; rfl⟩
    · rcases visitDataType_same valueType with ⟨e, he, he'⟩ | ⟨v, v', hv, hv', hvalues⟩
      · exact .inl ⟨e, by rw [visitDataType, hk, he]; rfl, by rw [visitDataType, hk', he']; rfl⟩
      · refine .inr ⟨.map k v, .map k' v', by rw [visitDataType, hk, hv]; rfl,
          by rw [visitDataType, hk', hv']; rfl, ?_⟩
        simp [hkeys, hvalues, DataTypeContext.names, or_imp, forall_and]
  | .struct fields => by
    rcases visitColTypeList_same fields with ⟨e, he, he'⟩ | ⟨t, t', ht, ht', hiff⟩
    · exact .inl ⟨e, by rw [visitDataType, he]; rfl, by rw [visitDataType, he']; rfl⟩
    · exact .inr ⟨.struct t, .struct t', by rw [visitDataType, ht]; rfl,
        by rw [visitDataType, ht']; rfl, by simp [hiff, DataTypeContext.names]⟩
  | .primitive identifier integerValues => by
    cases h : visitPrimitiveDataType identifier integerValues with
    | error e => exact .inl ⟨e, by rw [visitDataType, h], by rw [visitDataType, h]⟩
    | ok t =>
      exact .inr ⟨t, t, by rw [visitDataType, h], by rw [visitDataType, h],
        by simp [DataTypeContext.names]⟩

lemma visitColTypeList_same : (ctx : ColTypeListContext ι) →
    (∃ e, visitColTypeList f ctx = .error e ∧ visitColTypeList f' ctx = .error e) ∨
      ∃ t t', visitColTypeList f ctx = .ok t ∧ visitColTypeList f' ctx = .ok t' ∧
        (t = t' ↔ ∀ i ∈ ctx.names, f i = f' i)
  | .nil => .inr ⟨.nil, .nil, by rw [visitColTypeList], by rw [visitColTypeList],
      by simp [ColTypeListContext.names]⟩
  | .cons identifier dataType colTypes => by
    rcases visitDataType_same dataType with ⟨e, he, he'⟩ | ⟨t, t', ht, ht', htype⟩
    · exact .inl ⟨e, by rw [visitColTypeList, he]; rfl, by rw [visitColTypeList, he']; rfl⟩
    · rcases visitColTypeList_same colTypes with ⟨e, he, he'⟩ | ⟨ts, ts', hts, hts', hrest⟩
      · exact .inl ⟨e, by rw [visitColTypeList, ht, he]; rfl,
          by rw [visitColTypeList, ht', he']; rfl⟩
      · refine .inr ⟨.cons (f identifier) t ts, .cons (f' identifier) t' ts',
          by rw [visitColTypeList, ht, hts]; rfl, by rw [visitColTypeList, ht', hts']; rfl, ?_⟩
        simp [htype, hrest, ColTypeListContext.names, or_imp, forall_and]

end

lemma visitShowFunctions_eq_iff {scope : Option Text} {db : Option ι} {pattern : Option Text} :
    visitShowFunctions f scope db pattern = visitShowFunctions f' scope db pattern ↔
      (∃ e, visitShowFunctions f scope db pattern = .error e) ∨ ∀ i ∈ db.toList, f i = f' i := by
  unfold visitShowFunctions
  cases visitScope scope with
  | error e => simp
  | ok scope =>
    obtain ⟨user, system⟩ := scope
    simp [option_map_eq_iff]

lemma visitMountTable_eq_iff {stream ifNotExists : Bool} {table : TableIdentifierContext ι}
    {columns : Option (ColTypeListContext ι)} {options : PropertyListContext} :
    visitMountTable f g stream ifNotExists table columns options =
        visitMountTable f' g' stream ifNotExists table columns options ↔
      (∃ e, visitMountTable f g stream ifNotExists table columns options = .error e) ∨
        (∀ i ∈ (columns.map ColTypeListContext.names).getD [], f i = f' i) ∧
          ∀ i ∈ table.names, g i = g' i := by
  unfold visitMountTable createSchema
  cases columns with
  | none => simp [visitTableIdentifier_eq_iff]
  | some columns =>
    rcases @visitColTypeList_same _ f f' columns with
      ⟨e, he, he'⟩ | ⟨t, t', ht, ht', hiff⟩
    · simp [he, he']
    · simp [ht, ht', hiff, visitTableIdentifier_eq_iff, and_comm]

/-- The same is built if and only if nothing is, or both texts of each identifier are the same
where they are taken. -/
lemma visit_eq_iff (ctx : Mql ι) : visit f g ctx = visit f' g' ctx ↔
    (∃ e, visit f g ctx = .error e) ∨
      (∀ i ∈ ctx.bare, f i = f' i) ∧ ∀ i ∈ ctx.stripped, g i = g' i := by
  cases ctx
  case showFunctions scope db pattern =>
    simpa [visit, Mql.bare, Mql.stripped] using visitShowFunctions_eq_iff
  case mountTable stream ifNotExists table columns options =>
    exact visitMountTable_eq_iff
  case createFunction temp _ _ _ _ _ =>
    cases temp <;>
      simp [visit, built, Mql.bare, Mql.stripped, visitFuncIdentifier_eq_iff]
  case dropFunction temp _ _ =>
    cases temp <;>
      simp [visit, built, Mql.bare, Mql.stripped, visitFuncIdentifier_eq_iff]
  case createEvent definer _ _ _ _ _ _ =>
    cases definer <;>
      simp [visit, built, Mql.bare, Mql.stripped, visitDefiner_eq_iff, or_imp, forall_and,
        and_comm, and_assoc]
  all_goals
    simp [visit, built, Mql.bare, Mql.stripped, visitTableIdentifier_eq_iff,
      visitFuncIdentifier_eq_iff, visitTableCollections_eq_iff, visitIdentifierList_eq_iff,
      visitDefiner_eq_iff, visitPrivileges_eq_iff, option_map_eq_iff, or_imp, forall_and,
      and_comm, and_left_comm]

end Congruence

/-! ### Texts and names -/

lemma length_le_double (name : Text) : name.length ≤ (double '`' name).length := by
  rw [double_length]
  exact Nat.le_add_right _ _

lemma double_eq_iff {name : Text} : double '`' name = name ↔ '`' ∉ name := by
  rw [← List.count_eq_zero]
  constructor
  · intro h
    have hlength := double_length '`' name
    rw [h] at hlength
    omega
  · intro h
    induction name with
    | nil => rfl
    | cons c name ih =>
      rw [List.count_cons] at h
      split at h
      · omega
      · rename_i hc
        rw [double_cons, if_neg (by simpa using hc), ih (by omega)]

/-- Only plain identifiers have their names as texts. -/
lemma text_eq_named {i : Identifier} : text i = named i ↔ i.IsPlain := by
  cases i with
  | plain word => simp [text, named, Identifier.getText, Identifier.name, Identifier.IsPlain]
  | backquoted name =>
    refine iff_of_false (fun h => ?_) id
    have hlength := congrArg List.length (String.ofList_injective h)
    have hle := length_le_double name
    simp only [Identifier.getText, Identifier.name, List.length_append, List.length_singleton]
      at hlength
    omega

lemma tripQuotes_backquoted (name : Text) :
    ParserUtils.tripQuotes (['`'] ++ name ++ ['`']) = name := by
  simp [ParserUtils.tripQuotes, isQuote]

lemma not_isQuote {c : Char} (h : isPlain c = true) : isQuote c = false := by
  rw [Bool.eq_false_iff]
  intro hquote
  simp only [isQuote, Bool.or_eq_true, decide_eq_true_eq, or_assoc] at hquote
  rcases hquote with rfl | rfl | rfl <;> revert h <;> decide

lemma tripQuotes_plain {word : Text} (h : word.all isPlain = true) :
    ParserUtils.tripQuotes word = word := by
  have hnone : ∀ c ∈ word, isQuote c = false := fun c hc => not_isQuote (List.all_eq_true.mp h c hc)
  have hhead : (word.head?.map isQuote).getD false = false := by
    cases hc : word.head? with
    | none => rfl
    | some c => exact hnone c (List.mem_of_mem_head? hc)
  have hlast : (word.getLast?.map isQuote).getD false = false := by
    cases hc : word.getLast? with
    | none => rfl
    | some c => exact hnone c (List.mem_of_mem_getLast? hc)
  simp [ParserUtils.tripQuotes, hhead, hlast]

lemma not_mem_word (word : Word) : '`' ∉ word.val := fun h =>
  absurd (List.all_eq_true.mp word.property _ h) (by decide)

/-- Without its quotes an identifier is its name unless a quote in it is doubled. -/
lemma tripped_eq_named {i : Identifier} : tripped i = named i ↔ '`' ∉ i.name := by
  cases i with
  | plain word =>
    refine iff_of_true ?_ (not_mem_word word)
    simp [tripped, named, stringText, Identifier.getText, Identifier.name,
      tripQuotes_plain word.property]
  | backquoted name =>
    rw [tripped, named, stringText, Identifier.getText, Identifier.name, tripQuotes_backquoted,
      ← double_eq_iff]
    exact ⟨fun h => String.ofList_injective h, fun h => by rw [h]⟩

/-! ### Commands -/

/-- What is built holds the names if and only if, unless nothing is built, the identifiers that
are taken as they are have no quotes, and the names of the others no backquotes. -/
theorem holdsNames_iff (ctx : Mql Identifier) : HoldsNames ctx ↔
    (∃ e, build ctx = .error e) ∨
      (∀ i ∈ ctx.bare, i.IsPlain) ∧ ∀ i ∈ ctx.stripped, '`' ∉ i.name := by
  rw [HoldsNames, build, visit_eq_iff]
  simp only [text_eq_named, tripped_eq_named]

/-- `CREATE VIEW` and `GRANT` on the same name in backquotes. -/
theorem holdsNames_fails : (¬ ∀ ctx, HoldsNames ctx) ∧
    build (.createView false ⟨none, .backquoted ['t']⟩ none []) =
      .ok ⟨.createView ⟨"t", none⟩ "" none false, none⟩ ∧
    build (.grantResourcePrivilegeToUsers ⟨[.select none], by simp⟩ ⟨none, .backquoted ['t']⟩
      (.plain ⟨['b', 'o', 'b'], by decide⟩)) =
        .ok ⟨.grantResourceToUser ⟨[.select], by simp⟩ ⟨"`t`", none⟩ "bob", none⟩ := by
  refine ⟨fun h => ?_, rfl, rfl⟩
  have hholds := h (.useDatabase (.backquoted ['d']))
  rw [HoldsNames] at hholds
  cases hholds

end Moonbox.Parser
