import Metidos.Schema.AccessMigration

/-!
What the migration makes of the stored permissions: the rows that had none get the projection of
their legacy flags exactly in a table that has the `unsafe_mode` column before, or where that
projection is empty.
-/

namespace Metidos.Schema

open SqlTables StatementScript RowTable

section Flags

variable {localeLe : Text → Text → Bool} {permissions : OrderedSet Text} {accessId other : Text}

theorem mem_setNative_other (differs : accessId ≠ other) (enabled : SqlValue) :
    nativePermission accessId ∈ setNative permissions other enabled ↔
      nativePermission accessId ∈ permissions := by
  have distinct : nativePermission accessId ≠ nativePermission other :=
    fun same => differs (List.append_cancel_left same)
  rw [setNative]
  split
  · rw [OrderedSet.mem_add]
    exact or_iff_right distinct
  · split
    · rw [OrderedSet.mem_delete]
      exact and_iff_right_of_imp fun _ => distinct
    · exact Iff.rfl

theorem setNative_member (member : nativePermission accessId ∈ permissions) {enabled : SqlValue}
    (notOff : enabled ≠ .integer 0) : setNative permissions accessId enabled = permissions := by
  rw [setNative]
  split
  · exact OrderedSet.add_of_mem member
  · rfl

theorem setNative_absent (absent : nativePermission accessId ∉ permissions) {enabled : SqlValue}
    (notOn : enabled ≠ .integer 1) : setNative permissions accessId enabled = permissions := by
  rw [setNative, if_neg notOn]
  split
  · exact OrderedSet.delete_of_not_mem absent
  · rfl

theorem mem_defaults (accessId : Text) :
    nativePermission accessId ∈ OrderedSet.ofList (defaultThreadPermissions localeLe) ↔
      (accessId, true) ∈ nativePermissionInputs := by
  rw [OrderedSet.mem_ofList, defaultThreadPermissions, List.mem_mergeSort, List.mem_map]
  constructor
  · rintro ⟨input, isInput, same⟩
    obtain ⟨member, enabled⟩ := List.mem_filter.mp isInput
    have sameId : input.1 = accessId := List.append_cancel_left same
    have isPair : input = (accessId, true) := Prod.ext sameId enabled
    exact isPair ▸ member
  · intro member
    exact ⟨(accessId, true), List.mem_filter.mpr ⟨member, rfl⟩, rfl⟩

theorem setNative_added (present : Bool) (value : SqlValue) {default : Int}
    (agrees : nativePermission accessId ∈ permissions ∧ default = 1 ∨
      nativePermission accessId ∉ permissions ∧ default = 0) :
    setNative permissions accessId (if present then value else .integer default) =
      setNative permissions accessId (if present then value else .null) := by
  cases present with
  | true => rfl
  | false =>
    rcases agrees with ⟨member, rfl⟩ | ⟨absent, rfl⟩
    · rw [if_neg Bool.false_ne_true, if_neg Bool.false_ne_true,
        setNative_member member (by decide), setNative_member member (by decide)]
    · rw [if_neg Bool.false_ne_true, if_neg Bool.false_ne_true,
        setNative_absent absent (by decide), setNative_absent absent (by decide)]

theorem setNative_metidos (hasFlag hasMetidos : Bool) (flag metidosAccess : SqlValue)
    (member : nativePermission accessId ∈ permissions) :
    setNative permissions accessId
        (orMetidosAccess
          (if hasFlag then flag
            else coalesce (if hasMetidos then metidosAccess else .integer 1) (.integer 1))
          (if hasMetidos then metidosAccess else .integer 1)) =
      setNative permissions accessId
        (orMetidosAccess (if hasFlag then flag else .null)
          (if hasMetidos then metidosAccess else .null)) := by
  have like : ∀ value : SqlValue, value ≠ .integer 0 →
      setNative permissions accessId value = permissions :=
    fun value notOff => setNative_member member notOff
  cases hasFlag with
  | true =>
    cases hasMetidos with
    | true => rfl
    | false =>
      by_cases missing : flag = .null
      · simp [orMetidosAccess, missing]
      · simp [orMetidosAccess, missing]
  | false =>
    cases hasMetidos with
    | true =>
      by_cases off : metidosAccess = .integer 0
      · simp [orMetidosAccess, coalesce, off]
      · by_cases missing : metidosAccess = .null
        · simp [orMetidosAccess, coalesce, missing]
        · simp [orMetidosAccess, coalesce, missing, off, like]
    | false => simp [orMetidosAccess, coalesce]

def HasDefaults (permissions : OrderedSet Text) (accessIds : List Text) : Prop :=
  ∀ accessId ∈ accessIds, nativePermission accessId ∈ permissions ↔
    (accessId, true) ∈ nativePermissionInputs

def SameFlag (one other : Text × SqlValue) : Prop :=
  one.1 = other.1 ∧ ∀ permissions, HasDefaults permissions [one.1] →
    setNative permissions one.1 one.2 = setNative permissions other.1 other.2

theorem foldl_setNative {flags others : List (Text × SqlValue)}
    (same : List.Forall₂ SameFlag flags others) (distinct : (flags.map Prod.fst).Nodup)
    (defaults : HasDefaults permissions (flags.map Prod.fst)) :
    flags.foldl (fun permissions flag => setNative permissions flag.1 flag.2) permissions =
      others.foldl (fun permissions flag => setNative permissions flag.1 flag.2) permissions := by
  induction same generalizing permissions with
  | nil => rfl
  | @cons one other rest _ sameFlag _ ih =>
    rw [List.map_cons, List.nodup_cons] at distinct
    rw [List.foldl_cons, List.foldl_cons, ← sameFlag.2 permissions]
    · refine ih distinct.2 fun later member => ?_
      have differs : later ≠ one.1 := fun isFirst => distinct.1 (isFirst ▸ member)
      rw [mem_setNative_other differs]
      exact defaults later (List.mem_cons_of_mem _ member)
    · intro accessId isFirst
      rw [List.mem_singleton.mp isFirst]
      exact defaults _ List.mem_cons_self

def nativeFlags (input : LegacyAccessInput) : List (Text × SqlValue) :=
  [("web-search".toList, input.webSearchAccess), ("webserver".toList, input.webServerAccess),
    ("github".toList, input.githubAccess), ("git".toList, input.gitAccess),
    ("sqlite".toList, input.sqliteAccess), ("agents".toList, input.agentsAccess),
    ("calendar".toList, input.calendarAccess), ("notifications".toList, input.notificationsAccess),
    ("threads".toList, orMetidosAccess input.threadsAccess input.metidosAccess),
    ("crons".toList, orMetidosAccess input.cronsAccess input.metidosAccess),
    ("unsafe".toList, input.unsafeMode)]

theorem resolve_congr {one other : LegacyAccessInput}
    (same : List.Forall₂ SameFlag (nativeFlags one) (nativeFlags other))
    (groups : one.pluginAccessGroups = other.pluginAccessGroups) :
    resolveInputThreadPermissions localeLe one = resolveInputThreadPermissions localeLe other := by
  have flags := @foldl_setNative (OrderedSet.ofList (defaultThreadPermissions localeLe)) _ _
    same (by
      show ["web-search".toList, "webserver".toList, "github".toList, "git".toList,
        "sqlite".toList, "agents".toList, "calendar".toList, "notifications".toList,
        "threads".toList, "crons".toList, "unsafe".toList].Nodup
      decide) fun accessId _ => mem_defaults accessId
  have parts : ∀ input : LegacyAccessInput, resolveInputThreadPermissions localeLe input =
      normalizeStoredThreadPermissions localeLe (((nativeFlags input).foldl
        (fun permissions flag => setNative permissions flag.1 flag.2)
        (OrderedSet.ofList (defaultThreadPermissions localeLe))).addAll
          (input.pluginAccessGroups.filterMap legacyPluginAccessGroupToPermission)).elements :=
    fun _ => rfl
  rw [parts, parts, flags, groups]

theorem sameFlag_added {accessId : Text} (present : Bool) (value : SqlValue) {default : Int}
    (agrees : default = if (accessId, true) ∈ nativePermissionInputs then 1 else 0) :
    SameFlag (accessId, if present then value else .integer default)
      (accessId, if present then value else .null) := by
  refine ⟨rfl, fun permissions defaults => setNative_added present value ?_⟩
  have known := defaults accessId (List.mem_singleton.mpr rfl)
  by_cases isDefault : (accessId, true) ∈ nativePermissionInputs
  · rw [if_pos isDefault] at agrees
    exact Or.inl ⟨known.mpr isDefault, agrees⟩
  · rw [if_neg isDefault] at agrees
    exact Or.inr ⟨fun member => isDefault (known.mp member), agrees⟩

theorem sameFlag_metidos {accessId : Text} (hasFlag hasMetidos : Bool)
    (flag metidosAccess : SqlValue) (isDefault : (accessId, true) ∈ nativePermissionInputs) :
    SameFlag
      (accessId, orMetidosAccess
        (if hasFlag then flag
          else coalesce (if hasMetidos then metidosAccess else .integer 1) (.integer 1))
        (if hasMetidos then metidosAccess else .integer 1))
      (accessId, orMetidosAccess (if hasFlag then flag else .null)
        (if hasMetidos then metidosAccess else .null)) :=
  ⟨rfl, fun _ defaults => setNative_metidos hasFlag hasMetidos flag metidosAccess
    ((defaults accessId (List.mem_singleton.mpr rfl)).mpr isDefault)⟩

end Flags

section Effects

theorem run_ensure (table : RowTable) (column : String × SqlValue) :
    (ensureAppSchemaColumn column).run (some table) = some (some (table.ensureColumn column)) := by
  rw [ensureAppSchemaColumn, issueUnless, run, tableHasColumn, Option.any_some, ensureColumn]
  by_cases present : table.has column.1 = true
  · rw [if_pos present, if_pos present]
    rfl
  · rw [if_neg present, if_neg present, run, onTable, Option.bind_some, if_neg present]
    rfl

theorem run_ensures (table : RowTable) (columns : List (String × SqlValue)) :
    (each columns ensureAppSchemaColumn).run (some table) =
      some (some (table.ensureColumns columns)) :=
  @run_each _ _ _ _ _ some _ (fun column _ inner => run_ensure inner column) table

theorem run_updates (table : RowTable) (changes : List (Row → Row)) :
    (each changes updateRows).run (some table) =
      some (some (changes.foldl RowTable.update table)) :=
  @run_each _ _ _ _ _ some _ (fun _ _ _ => rfl) table

def accessFilled (table : AccessTable) (before : RowTable) : RowTable :=
  before.ensureColumns (table.firstColumns ++ accessColumns)

def coalesced (before : RowTable) (column : String) (filled : RowTable) : RowTable :=
  if before.has column then filled
  else filled.update (setWhere (fun _ => true) column metidosAccessOf)

def accessEnsured (table : AccessTable) (before : RowTable) : RowTable :=
  (coalesced before "crons_access" (coalesced before "threads_access"
    (accessFilled table before))).ensureColumns storedColumns

theorem run_ensureAccessColumns (table : AccessTable) (before : RowTable) :
    (ensureAccessColumns table).run (some before) = some (some (accessEnsured table before)) := by
  have coalesces : ∀ (column : String) (inner : RowTable),
      (if tableHasColumn (some before) column = true then done
        else updateRows (setWhere (fun _ => true) column metidosAccessOf)).run (some inner) =
          some (some (coalesced before column inner)) := by
    intro column inner
    rw [coalesced, tableHasColumn, Option.any_some]
    by_cases present : before.has column = true
    · rw [if_pos present, if_pos present]
      rfl
    · rw [if_neg present, if_neg present]
      rfl
  rw [ensureAccessColumns, run, run_sequence_cons, run_ensures, Option.bind_some,
    run_sequence_cons, coalesces, Option.bind_some, run_sequence_cons, coalesces,
    Option.bind_some, run_sequence_cons, run_ensures, Option.bind_some]
  rfl

variable (localeLe : Text → Text → Bool)

def backfilledRow (row : Row) : Row :=
  if isEmptyPermissions (row "permissions") then
    Function.update row "permissions" (projectedPermissions localeLe row)
  else row

def backfilled (table : RowTable) : RowTable :=
  (table.rows.entries.filter fun entry => isEmptyPermissions (entry.2 "permissions")).foldl
    (fun table entry => table.updateRow entry.1 fun row =>
      Function.update row "permissions" (projectedPermissions localeLe entry.2)) table

def backfills (table : RowTable) : Bool :=
  table.has "web_search_access" && table.has "unsafe_mode"

theorem run_backfillPermissions (table : RowTable) :
    (backfillPermissions localeLe).run (some table) =
      some (some (if backfills table then backfilled localeLe table else table)) := by
  rw [backfillPermissions, run, tableHasColumn, Option.any_some, tableHasColumn, Option.any_some,
    ← backfills]
  split
  · have entries : (some table).toList.flatMap (fun table => table.rows.entries) =
        table.rows.entries := by simp
    rw [entries]
    exact @run_each _ _ _ _ _ some _ (fun _ _ _ => rfl) table
  · rfl

theorem rows_foldl_updateRow {α : Type} (table : RowTable) (entries : List (Int × α))
    (change : α → Row → Row) :
    (entries.foldl (fun table entry => table.updateRow entry.1 (change entry.2)) table).rows =
      entries.foldl (fun rows entry => rows.modify entry.1 (change entry.2)) table.rows := by
  induction entries generalizing table with
  | nil => rfl
  | cons entry rest ih => exact ih _

theorem columns_foldl_updateRow {α : Type} (table : RowTable) (entries : List (Int × α))
    (change : α → Row → Row) :
    (entries.foldl (fun table entry => table.updateRow entry.1 (change entry.2)) table).columns =
      table.columns := by
  induction entries generalizing table with
  | nil => rfl
  | cons entry rest ih => exact ih _

theorem columns_backfilled (table : RowTable) :
    (backfilled localeLe table).columns = table.columns :=
  columns_foldl_updateRow table _ fun found row =>
    Function.update row "permissions" (projectedPermissions localeLe found)

theorem get?_backfilled (table : RowTable) (id : Int) :
    (backfilled localeLe table).rows.get? id =
      (table.rows.get? id).map (backfilledRow localeLe) := by
  let change (found row : Row) : Row :=
    Function.update row "permissions" (projectedPermissions localeLe found)
  let emptied := table.rows.filter fun _ (row : Row) => isEmptyPermissions (row "permissions")
  have kept : OrderedMap.lookup id emptied.entries =
      (table.rows.get? id).filter fun row => isEmptyPermissions (row "permissions") :=
    OrderedMap.get?_filter (fun _ (row : Row) => isEmptyPermissions (row "permissions")) table.rows id
  have rows : (backfilled localeLe table).rows =
      emptied.entries.foldl (fun rows entry => rows.modify entry.1 (change entry.2)) table.rows :=
    rows_foldl_updateRow table emptied.entries change
  rw [rows, OrderedMap.get?_foldl_modify_entries table.rows emptied.distinct id, kept]
  cases table.rows.get? id with
  | none => rfl
  | some row =>
    rw [Option.map_some, backfilledRow]
    by_cases empty : isEmptyPermissions (row "permissions") = true
    · rw [Option.filter_some, if_pos empty, if_pos empty]
      rfl
    · rw [Option.filter_some, if_neg empty, if_neg empty]

theorem run_dropLegacyAccessColumns (table : RowTable) :
    dropLegacyAccessColumns.run (some table) =
      some (some (table.dropColumns legacyAccessColumnNames)) := by
  have drops : ∀ (columns : List String) (inner : RowTable), columns.Nodup →
      (∀ column ∈ columns, inner.has column = true) →
        (each columns fun column => statement (onTable fun table =>
          if table.has column then some (table.dropColumn column) else none)).run (some inner) =
            some (some (columns.foldl RowTable.dropColumn inner)) := by
    intro columns
    induction columns with
    | nil => exact fun _ _ _ => rfl
    | cons column rest ih =>
      intro inner distinct present
      rw [List.nodup_cons] at distinct
      have first : (statement (onTable fun table : RowTable =>
          if table.has column then some (table.dropColumn column) else none)).run (some inner) =
            some (some (inner.dropColumn column)) := by
        rw [statement, run, onTable, Option.bind_some,
          if_pos (present column List.mem_cons_self)]
        rfl
      rw [each, List.map_cons, run_sequence_cons, first, Option.bind_some, List.foldl_cons]
      refine ih _ distinct.2 fun other member => ?_
      have stays := present other (List.mem_cons_of_mem _ member)
      have differs : other ≠ column := fun same => distinct.1 (same ▸ member)
      rw [RowTable.has, decide_eq_true_eq] at stays ⊢
      exact (OrderedSet.mem_delete _ _ _).mpr ⟨differs, stays⟩
  have distinct : legacyAccessColumnNames.Nodup := by decide
  rw [dropLegacyAccessColumns, run]
  exact drops _ table (distinct.filter _) fun column member => (List.mem_filter.mp member).2

def accessMigrated (table : AccessTable) (before : RowTable) : RowTable :=
  let ensured := accessEnsured table before
  let stored := if backfills ensured then backfilled localeLe ensured else ensured
  (table.normalizations.foldl RowTable.update (stored.ensureColumns
    table.laterColumns)).dropColumns legacyAccessColumnNames

theorem run_migrateAccess (table : AccessTable) (before : RowTable) :
    (migrateAccess localeLe table).run (some before) =
      some (some (accessMigrated localeLe table before)) := by
  have created : (createTableIfNotExists table.createColumns).run (some before) =
      some (some before) := rfl
  rw [migrateAccess, run_sequence_cons, created, Option.bind_some, run_sequence_cons,
    run_ensureAccessColumns, Option.bind_some, run_sequence_cons, run_backfillPermissions,
    Option.bind_some, run_sequence_cons, run_ensures, Option.bind_some, run_sequence_cons,
    run_updates, Option.bind_some, run_sequence_cons, run_dropLegacyAccessColumns]
  rfl

end Effects

structure AccessTable.Plain (table : AccessTable) : Prop where
  first : ∀ column ∈ legacyAccessColumnNames ++ storedColumns.map Prod.fst,
    table.firstColumns.lookup column = none
  normalizations : ∀ change ∈ table.normalizations, ∀ row : Row,
    change row "permissions" = row "permissions"

section Rows

variable {table : AccessTable} {before : RowTable} {row : Row}

def coalescedRow (before : RowTable) (column : String) (row : Row) : Row :=
  if before.has column then row else Function.update row column (metidosAccessOf row)

def accessRow (table : AccessTable) (before : RowTable) (row : Row) : Row :=
  (coalesced before "crons_access" (coalesced before "threads_access"
    (accessFilled table before))).filled storedColumns
      (coalescedRow before "crons_access" (coalescedRow before "threads_access"
        (before.filled (table.firstColumns ++ accessColumns) row)))

theorem coalescedRow_apply (column other : String) :
    coalescedRow before column row other =
      if other = column ∧ before.has column = false then metidosAccessOf row else row other := by
  rw [coalescedRow]
  by_cases present : before.has column = true
  · rw [if_pos present, if_neg (by simp [present])]
  · have absent : before.has column = false := Bool.eq_false_iff.mpr present
    rw [if_neg present, Function.update_apply]
    simp only [absent, and_true]

theorem get?_coalesced (column : String) (filled : RowTable) (id : Int) :
    (coalesced before column filled).rows.get? id =
      (filled.rows.get? id).map (coalescedRow before column) := by
  rw [coalesced]
  split
  · rename_i present
    have same : coalescedRow before column = fun row => row := by
      funext row
      rw [coalescedRow, if_pos present]
    rw [same]
    exact Option.map_id'.symm
  · rename_i absent
    have changed : coalescedRow before column =
        setWhere (fun _ => true) column metidosAccessOf := by
      funext row
      rw [coalescedRow, if_neg absent]
      rfl
    rw [RowTable.update, OrderedMap.get?_mapValues, changed]

theorem has_coalesced (column other : String) (filled : RowTable) :
    (coalesced before column filled).has other = filled.has other := by
  rw [coalesced]
  split <;> rfl

theorem get?_accessEnsured (id : Int) : (accessEnsured table before).rows.get? id =
    (before.rows.get? id).map (accessRow table before) := by
  rw [accessEnsured, rows_ensureColumns, OrderedMap.get?_mapValues, get?_coalesced,
    get?_coalesced, accessFilled, rows_ensureColumns, OrderedMap.get?_mapValues, Option.map_map,
    Option.map_map, Option.map_map]
  rfl

theorem has_accessFilled (plain : table.Plain) {column : String}
    (isAccess : column ∈ legacyAccessColumnNames ++ storedColumns.map Prod.fst) :
    (accessFilled table before).has column = true ↔
      before.has column = true ∨ (accessColumns.lookup column).isSome = true := by
  rw [accessFilled, has_ensureColumns, List.lookup_append, plain.first column isAccess,
    Option.none_or]

theorem accessRow_apply (plain : table.Plain) {column : String}
    (isAccess : column ∈ legacyAccessColumnNames ++ storedColumns.map Prod.fst) :
    accessRow table before row column =
      if before.has column then row column
      else if column = "threads_access" ∨ column = "crons_access" then
        coalesce (if before.has "metidos_access" then row "metidos_access" else integer 1) (integer 1)
      else ((accessColumns ++ storedColumns).lookup column).getD (row column) := by
  have filled : ∀ other ∈ legacyAccessColumnNames ++ storedColumns.map Prod.fst,
      before.filled (table.firstColumns ++ accessColumns) row other =
        if before.has other then row other
        else (accessColumns.lookup other).getD (row other) := by
    intro other isOther
    rw [RowTable.filled, List.lookup_append, plain.first other isOther, Option.none_or]
  have metidos : metidosAccessOf (before.filled (table.firstColumns ++ accessColumns) row) =
      coalesce (if before.has "metidos_access" then row "metidos_access" else integer 1)
        (integer 1) := by
    rw [metidosAccessOf, filled "metidos_access" (by decide)]
    rfl
  have coalescedAt : coalescedRow before "crons_access" (coalescedRow before "threads_access"
      (before.filled (table.firstColumns ++ accessColumns) row)) column =
        if (column = "threads_access" ∨ column = "crons_access") ∧ before.has column = false then
          metidosAccessOf (before.filled (table.firstColumns ++ accessColumns) row)
        else before.filled (table.firstColumns ++ accessColumns) row column := by
    generalize before.filled (table.firstColumns ++ accessColumns) row = inner
    have apart : metidosAccessOf (coalescedRow before "threads_access" inner) =
        metidosAccessOf inner := by
      rw [metidosAccessOf, metidosAccessOf, coalescedRow_apply, if_neg (by simp)]
    rw [coalescedRow_apply, coalescedRow_apply, apart]
    by_cases isCrons : column = "crons_access"
    · subst isCrons
      simp
    · by_cases isThreads : column = "threads_access"
      · subst isThreads
        simp
      · simp [isCrons, isThreads]
  rw [accessRow, RowTable.filled, has_coalesced, has_coalesced, coalescedAt, filled column isAccess,
    metidos]
  have inFilled := @has_accessFilled _ before plain _ isAccess
  by_cases present : before.has column = true
  · simp only [if_pos (inFilled.mpr (Or.inl present)), present, Bool.true_eq_false, and_false,
      if_false, if_true]
  · have absent : before.has column = false := Bool.eq_false_iff.mpr present
    by_cases split : column = "threads_access" ∨ column = "crons_access"
    · have known : (accessColumns.lookup column).isSome = true := by
        rcases split with rfl | rfl <;> rfl
      simp only [if_pos (inFilled.mpr (Or.inr known)), absent, split, and_self, if_true,
        Bool.false_eq_true, if_false]
    · rw [List.lookup_append]
      cases known : accessColumns.lookup column with
      | some value =>
        have added := inFilled.mpr (Or.inr (Option.isSome_iff_exists.mpr ⟨value, known⟩))
        simp only [if_pos added, absent, split, false_and, Bool.false_eq_true, if_false,
          Option.some_or]
      | none =>
        have notAdded : ¬(accessFilled table before).has column = true := by
          rw [inFilled, known]
          simp [absent]
        simp only [if_neg notAdded, absent, split, false_and, Bool.false_eq_true, if_false,
          Option.none_or, Option.getD_none]

theorem accessRow_default (plain : table.Plain) {column : String} {default : SqlValue}
    (isAccess : column ∈ legacyAccessColumnNames ++ storedColumns.map Prod.fst)
    (apart : column ≠ "threads_access" ∧ column ≠ "crons_access")
    (known : (accessColumns ++ storedColumns).lookup column = some default) :
    accessRow table before row column = if before.has column then row column else default := by
  have apartFrom : ¬(column = "threads_access" ∨ column = "crons_access") :=
    not_or.mpr apart
  rw [accessRow_apply plain isAccess, known, Option.getD_some, if_neg apartFrom]

theorem parse_noGroups (localeLe : Text → Text → Bool) :
    parseThreadPluginAccessGroups localeLe (text "[]") =
      parseThreadPluginAccessGroups localeLe .null := by
  have parsed : JsonText.parse "[]".toList = some (.array []) := rfl
  have notBlank : ¬JsText.trim "[]".toList = [] := by decide
  have groups : normalizeThreadPluginAccessGroups localeLe (.array []) = some [] := by
    simp [normalizeThreadPluginAccessGroups, OrderedSet.empty]
  show (if JsText.trim "[]".toList = [] then []
    else ((JsonText.parse "[]".toList).bind
      (normalizeThreadPluginAccessGroups localeLe)).getD []) = []
  rw [if_neg notBlank, parsed, Option.bind_some, groups]
  rfl

theorem resolve_accessRow (localeLe : Text → Text → Bool) (plain : table.Plain)
    (hasUnsafe : before.has "unsafe_mode" = true) :
    resolveInputThreadPermissions localeLe (accessInput localeLe (accessRow table before row)) =
      resolveInputThreadPermissions localeLe (accessInput localeLe (before.valueOf row)) := by
  have metidos : accessRow table before row "metidos_access" =
      if before.has "metidos_access" then row "metidos_access" else .integer 1 :=
    accessRow_default plain (by decide) (by decide) rfl
  have threads : accessRow table before row "threads_access" =
      if before.has "threads_access" then row "threads_access"
      else coalesce (if before.has "metidos_access" then row "metidos_access" else .integer 1)
        (.integer 1) :=
    accessRow_apply plain (by decide)
  have crons : accessRow table before row "crons_access" =
      if before.has "crons_access" then row "crons_access"
      else coalesce (if before.has "metidos_access" then row "metidos_access" else .integer 1)
        (.integer 1) :=
    accessRow_apply plain (by decide)
  have unsafeMode : accessRow table before row "unsafe_mode" =
      if before.has "unsafe_mode" then row "unsafe_mode" else .null := by
    rw [accessRow_apply plain (by decide), if_pos hasUnsafe, if_pos hasUnsafe]
  have groups : parseThreadPluginAccessGroups localeLe
      (accessRow table before row "plugin_access_groups") =
        parseThreadPluginAccessGroups localeLe (before.valueOf row "plugin_access_groups") := by
    have stored : accessRow table before row "plugin_access_groups" =
        if before.has "plugin_access_groups" then row "plugin_access_groups" else text "[]" :=
      accessRow_default plain (by decide) (by decide) rfl
    rw [stored, valueOf]
    split
    · rfl
    · exact parse_noGroups localeLe
  refine resolve_congr ?_ groups
  have added : ∀ (accessId : Text) (column : String) (default : Int),
      column ∈ legacyAccessColumnNames ++ storedColumns.map Prod.fst →
      column ≠ "threads_access" ∧ column ≠ "crons_access" →
      (accessColumns ++ storedColumns).lookup column = some (.integer default) →
      (default = if (accessId, true) ∈ nativePermissionInputs then 1 else 0) →
      SameFlag (accessId, accessRow table before row column)
        (accessId, before.valueOf row column) := by
    intro accessId column default isAccess apart known agrees
    rw [accessRow_default plain isAccess apart known]
    exact sameFlag_added (before.has column) (row column) agrees
  refine .cons (added _ _ 1 (by decide) (by decide) rfl rfl) ?_
  refine .cons (added _ _ 0 (by decide) (by decide) rfl rfl) ?_
  refine .cons (added _ _ 0 (by decide) (by decide) rfl rfl) ?_
  refine .cons (added _ _ 0 (by decide) (by decide) rfl rfl) ?_
  refine .cons (added _ _ 0 (by decide) (by decide) rfl rfl) ?_
  refine .cons (added _ _ 0 (by decide) (by decide) rfl rfl) ?_
  refine .cons (added _ _ 0 (by decide) (by decide) rfl rfl) ?_
  refine .cons (added _ _ 0 (by decide) (by decide) rfl rfl) ?_
  refine .cons ?_ (.cons ?_ (.cons ?_ .nil))
  · rw [accessInput, metidos, threads]
    exact sameFlag_metidos (before.has "threads_access") (before.has "metidos_access")
      (row "threads_access") (row "metidos_access") (by decide)
  · rw [accessInput, metidos, crons]
    exact sameFlag_metidos (before.has "crons_access") (before.has "metidos_access")
      (row "crons_access") (row "metidos_access") (by decide)
  · rw [accessInput, unsafeMode]
    exact ⟨rfl, fun _ _ => rfl⟩

end Rows

def KeepsColumn (column : String) (before after : RowTable) : Prop :=
  ∀ id row, before.rows.get? id = some row →
    ∃ final, after.rows.get? id = some final ∧ final column = row column

section Kept

variable {column : String} {table middle after : RowTable}

theorem KeepsColumn.refl (table : RowTable) : KeepsColumn column table table :=
  fun _ row present => ⟨row, present, rfl⟩

theorem KeepsColumn.trans (first : KeepsColumn column table middle)
    (second : KeepsColumn column middle after) : KeepsColumn column table after := by
  intro id row present
  obtain ⟨inner, isInner, same⟩ := first id row present
  obtain ⟨final, isFinal, sameFinal⟩ := second id inner isInner
  exact ⟨final, isFinal, sameFinal.trans same⟩

theorem keeps_mapValues {columns : OrderedSet String} {change : Row → Row}
    (same : ∀ row, change row column = row column) :
    KeepsColumn column table { columns, rows := table.rows.mapValues change } := by
  intro id row present
  refine ⟨change row, ?_, same row⟩
  dsimp only
  rw [OrderedMap.get?_mapValues, present, Option.map_some]

theorem keeps_ensureColumns {columns : List (String × SqlValue)}
    (known : table.has column = true) : KeepsColumn column table (table.ensureColumns columns) := by
  intro id row present
  refine ⟨table.filled columns row, ?_, ?_⟩
  · rw [rows_ensureColumns, OrderedMap.get?_mapValues, present, Option.map_some]
  · rw [RowTable.filled, if_pos known]

theorem keeps_updates {changes : List (Row → Row)}
    (same : ∀ change ∈ changes, ∀ row : Row, change row column = row column) :
    KeepsColumn column table (changes.foldl RowTable.update table) := by
  induction changes generalizing table with
  | nil => exact KeepsColumn.refl table
  | cons change rest ih =>
    exact (keeps_mapValues (same change List.mem_cons_self)).trans
      (ih fun other member => same other (List.mem_cons_of_mem _ member))

theorem keeps_dropColumns {columns : List String} (apart : column ∉ columns) :
    KeepsColumn column table (table.dropColumns columns) := by
  have dropped : ∀ (names : List String) (table : RowTable), column ∉ names →
      KeepsColumn column table (names.foldl RowTable.dropColumn table) := by
    intro names
    induction names with
    | nil => exact fun table _ => KeepsColumn.refl table
    | cons name rest ih =>
      intro table absent
      have differs : column ≠ name := fun same => absent (same ▸ List.mem_cons_self)
      exact (keeps_mapValues fun row => Function.update_of_ne differs _ _).trans
        (ih _ fun member => absent (List.mem_cons_of_mem _ member))
  exact dropped _ table fun member => apart (List.mem_of_mem_filter member)

end Kept

section Stored

variable {localeLe : Text → Text → Bool} {table : AccessTable} {before : RowTable} {row : Row}

def storedPermissions (before : RowTable) (row : Row) : SqlValue :=
  if before.has "permissions" then row "permissions" else text "[]"

def legacyPermissions (localeLe : Text → Text → Bool) (before : RowTable) (row : Row) :
    List Text :=
  normalizeStoredThreadPermissions localeLe
    (resolveInputThreadPermissions localeLe (accessInput localeLe (before.valueOf row)))

def permissionsText (permissions : List Text) : SqlValue :=
  .text ('[' :: ([','].intercalate (permissions.map JsText.jsonStringify) ++ [']']))

def SamePermissions (one other : SqlValue) : Prop :=
  one = other ∨ isEmptyPermissions one = true ∧ isEmptyPermissions other = true

/-- The rows that had no permissions have the projection of their legacy flags, and the others the
permissions that they had. -/
def PreservesAccess (localeLe : Text → Text → Bool) (before after : RowTable) : Prop :=
  ∀ id row, before.rows.get? id = some row → ∃ final, after.rows.get? id = some final ∧
    if isEmptyPermissions (storedPermissions before row) then
      SamePermissions (final "permissions")
        (permissionsText (legacyPermissions localeLe before row))
    else final "permissions" = row "permissions"

def Projectable (localeLe : Text → Text → Bool) (before : RowTable) : Prop :=
  before.has "unsafe_mode" = true ∨ ∀ id row, before.rows.get? id = some row →
    isEmptyPermissions (storedPermissions before row) = true →
      legacyPermissions localeLe before row = []

theorem accessRow_permissions (plain : table.Plain) :
    accessRow table before row "permissions" = storedPermissions before row :=
  accessRow_default plain (by decide) (by decide) rfl

theorem backfills_iff (plain : table.Plain) :
    backfills (accessEnsured table before) = before.has "unsafe_mode" := by
  have has : ∀ column ∈ legacyAccessColumnNames ++ storedColumns.map Prod.fst,
      ((accessEnsured table before).has column = true ↔
        (before.has column = true ∨ (accessColumns.lookup column).isSome = true) ∨
          (storedColumns.lookup column).isSome = true) := by
    intro column isAccess
    rw [accessEnsured, has_ensureColumns, has_coalesced, has_coalesced,
      has_accessFilled plain isAccess]
  have web : (accessEnsured table before).has "web_search_access" = true :=
    (has "web_search_access" (by decide)).mpr (Or.inl (Or.inr rfl))
  have unsafeMode := has "unsafe_mode" (by decide)
  rw [backfills, web, Bool.true_and, Bool.eq_iff_iff, unsafeMode]
  constructor
  · rintro ((present | added) | added)
    · exact present
    · cases added
    · cases added
  · exact fun present => Or.inl (Or.inl present)

theorem accessMigrated_eq (plain : table.Plain) :
    accessMigrated localeLe table before =
      (table.normalizations.foldl RowTable.update
        ((if before.has "unsafe_mode" then backfilled localeLe (accessEnsured table before)
          else accessEnsured table before).ensureColumns
            table.laterColumns)).dropColumns legacyAccessColumnNames := by
  rw [accessMigrated, backfills_iff plain]

theorem keeps_afterBackfill (plain : table.Plain) {stored : RowTable}
    (known : stored.has "permissions" = true) :
    KeepsColumn "permissions" stored ((table.normalizations.foldl RowTable.update
      (stored.ensureColumns table.laterColumns)).dropColumns legacyAccessColumnNames) :=
  ((keeps_ensureColumns known).trans (keeps_updates plain.normalizations)).trans
    (keeps_dropColumns (by decide))

theorem has_permissions_accessEnsured : (accessEnsured table before).has "permissions" = true := by
  rw [accessEnsured, has_ensureColumns]
  exact Or.inr rfl

theorem accessMigrated_permissions (plain : table.Plain) {id : Int}
    (present : before.rows.get? id = some row) :
    ∃ final, (accessMigrated localeLe table before).rows.get? id = some final ∧
      final "permissions" =
        if before.has "unsafe_mode" ∧ isEmptyPermissions (storedPermissions before row) then
          permissionsText (legacyPermissions localeLe before row)
        else storedPermissions before row := by
  have ensured : (accessEnsured table before).rows.get? id = some (accessRow table before row) := by
    rw [get?_accessEnsured, present, Option.map_some]
  rw [accessMigrated_eq plain]
  by_cases hasUnsafe : before.has "unsafe_mode" = true
  · have known : (backfilled localeLe (accessEnsured table before)).has "permissions" = true := by
      rw [RowTable.has, columns_backfilled]
      exact has_permissions_accessEnsured
    have projected : (backfilled localeLe (accessEnsured table before)).rows.get? id =
        some (backfilledRow localeLe (accessRow table before row)) := by
      rw [get?_backfilled, ensured, Option.map_some]
    obtain ⟨final, isFinal, same⟩ := keeps_afterBackfill plain known id _ projected
    rw [if_pos hasUnsafe]
    refine ⟨final, isFinal, same.trans ?_⟩
    rw [backfilledRow, accessRow_permissions plain]
    by_cases empty : isEmptyPermissions (storedPermissions before row) = true
    · rw [if_pos empty, if_pos ⟨hasUnsafe, empty⟩, Function.update_self, projectedPermissions,
        resolve_accessRow localeLe plain hasUnsafe]
      rfl
    · rw [if_neg empty, if_neg fun both => empty both.2, accessRow_permissions plain]
  · obtain ⟨final, isFinal, same⟩ :=
      keeps_afterBackfill plain has_permissions_accessEnsured id _ ensured
    rw [if_neg hasUnsafe, if_neg fun both => hasUnsafe both.1]
    exact ⟨final, isFinal, same.trans (accessRow_permissions plain)⟩

theorem sqlTrim_ne_nil {char : Char} (solid : char ≠ ' ') (rest : List Char) :
    sqlTrim (char :: rest) ≠ [] := by
  intro blank
  rw [sqlTrim, List.reverse_eq_nil_iff, List.dropWhile_eq_nil_iff,
    List.dropWhile_cons_of_neg (by simp [solid])] at blank
  have isSpace := blank char (List.mem_reverse.mpr List.mem_cons_self)
  exact solid (of_decide_eq_true isSpace)

theorem isEmptyPermissions_permissionsText (permissions : List Text) :
    isEmptyPermissions (permissionsText permissions) = true ↔ permissions = [] := by
  constructor
  · intro empty
    rw [isEmptyPermissions, Bool.or_eq_true, permissionsText, isBlankValue, decide_eq_true_eq,
      decide_eq_true_eq] at empty
    rcases empty with blank | same
    · exact absurd blank (sqlTrim_ne_nil (by decide) _)
    · cases permissions with
      | nil => rfl
      | cons first rest =>
        have shorter := congrArg List.tail (SqlValue.text.inj same)
        cases rest with
        | nil => simp [JsText.jsonStringify, List.intercalate] at shorter
        | cons second rest => simp [JsText.jsonStringify, List.intercalate] at shorter
  · rintro rfl
    rfl

theorem samePermissions_empty {stored : SqlValue} (empty : isEmptyPermissions stored = true)
    (permissions : List Text) :
    SamePermissions stored (permissionsText permissions) ↔ permissions = [] := by
  rw [← isEmptyPermissions_permissionsText]
  constructor
  · rintro (same | ⟨_, alsoEmpty⟩)
    · exact same ▸ empty
    · exact alsoEmpty
  · exact fun alsoEmpty => Or.inr ⟨empty, alsoEmpty⟩

theorem storedPermissions_of_nonempty
    (nonempty : ¬isEmptyPermissions (storedPermissions before row) = true) :
    storedPermissions before row = row "permissions" := by
  rw [storedPermissions] at nonempty ⊢
  split
  · rfl
  · rename_i absent
    exact absurd (by rw [if_neg absent]; decide) nonempty

theorem preservesAccess_iff (plain : table.Plain) :
    PreservesAccess localeLe before (accessMigrated localeLe table before) ↔
      Projectable localeLe before := by
  constructor
  · intro preserved
    by_cases hasUnsafe : before.has "unsafe_mode" = true
    · exact Or.inl hasUnsafe
    · refine Or.inr fun id row present empty => ?_
      obtain ⟨final, isFinal, outcome⟩ := preserved id row present
      obtain ⟨migrated, isMigrated, permissions⟩ :=
        @accessMigrated_permissions localeLe _ _ _ plain _ present
      have sameRow : final = migrated := Option.some.inj (isFinal.symm.trans isMigrated)
      rw [if_neg fun both => hasUnsafe both.1] at permissions
      rw [if_pos empty, sameRow, permissions] at outcome
      exact (samePermissions_empty empty _).mp outcome
  · intro projectable id row present
    obtain ⟨final, isFinal, permissions⟩ :=
      @accessMigrated_permissions localeLe _ _ _ plain _ present
    refine ⟨final, isFinal, ?_⟩
    by_cases empty : isEmptyPermissions (storedPermissions before row) = true
    · rw [if_pos empty, permissions]
      by_cases hasUnsafe : before.has "unsafe_mode" = true
      · rw [if_pos ⟨hasUnsafe, empty⟩]
        exact Or.inl rfl
      · have nothing := projectable.resolve_left hasUnsafe id row present empty
        rw [if_neg fun both => hasUnsafe both.1]
        exact (samePermissions_empty empty _).mpr nothing
    · rw [if_neg empty, permissions, if_neg fun both => empty both.2]
      exact storedPermissions_of_nonempty empty

end Stored

section Tables

variable {localeLe : Text → Text → Bool} (options : AppSchemaMigrationOptions)

theorem setWhere_of_ne {condition : Row → Bool} {column other : String} {value : Row → SqlValue}
    (differs : other ≠ column) (row : Row) :
    setWhere condition column value row other = row other := by
  rw [setWhere]
  split
  · exact Function.update_of_ne differs _ _
  · rfl

theorem plain_threadsTable : (threadsTable options).Plain where
  first := (by decide : ∀ column ∈ legacyAccessColumnNames ++ storedColumns.map Prod.fst,
    (threadsTable ⟨[], []⟩).firstColumns.lookup column = none)
  normalizations := by
    simp only [threadsTable, metidosNormalizations, whereBlank, whereNull, List.cons_append,
      List.nil_append, List.forall_mem_cons]
    refine ⟨?_, ?_, ?_, ?_, ?_, ?_, ?_, ?_, ?_, ?_, ?_, ?_, ?_, ?_, ?_, ?_⟩ <;>
      first
        | exact setWhere_of_ne (by decide)
        | exact fun _ absent => absurd absent List.not_mem_nil

theorem plain_cronJobsTable : (cronJobsTable options).Plain where
  first := (by decide : ∀ column ∈ legacyAccessColumnNames ++ storedColumns.map Prod.fst,
    (cronJobsTable ⟨[], []⟩).firstColumns.lookup column = none)
  normalizations := by
    simp only [cronJobsTable, metidosNormalizations, whereBlank, whereNull, List.cons_append,
      List.nil_append, List.forall_mem_cons]
    refine ⟨?_, ?_, ?_, ?_, ?_, ?_, ?_, ?_, ?_, ?_, ?_, ?_, ?_, ?_, ?_, ?_, ?_⟩ <;>
      first
        | exact setWhere_of_ne (by decide)
        | exact fun _ absent => absurd absent List.not_mem_nil

theorem run_migrateAccess_slot (table : AccessTable) (slot : Slot) :
    (migrateAccess localeLe table).run slot = some (some
      (accessMigrated localeLe table (slot.getD (RowTable.create table.createColumns)))) := by
  cases slot with
  | some before => exact run_migrateAccess localeLe table before
  | none =>
    rw [Option.getD_none, ← run_migrateAccess]
    rfl

variable (localeLe)

/-- The access of the rows of both tables is preserved exactly where both tables are
projectable. -/
theorem migration_preserves_access (threads cronJobs : Slot) :
    ∃ threadsAfter cronJobsAfter,
      (migrateAccess localeLe (threadsTable options)).run threads = some (some threadsAfter) ∧
      (migrateAccess localeLe (cronJobsTable options)).run cronJobs = some (some cronJobsAfter) ∧
      (((∀ before ∈ threads, PreservesAccess localeLe before threadsAfter) ∧
          ∀ before ∈ cronJobs, PreservesAccess localeLe before cronJobsAfter) ↔
        (∀ before ∈ threads, Projectable localeLe before) ∧
          ∀ before ∈ cronJobs, Projectable localeLe before) := by
  have each : ∀ {table : AccessTable}, table.Plain → ∀ slot : Slot,
      (∀ before ∈ slot, PreservesAccess localeLe before (accessMigrated localeLe table
        (slot.getD (RowTable.create table.createColumns)))) ↔
          ∀ before ∈ slot, Projectable localeLe before := by
    intro table plain slot
    cases slot with
    | none => exact iff_of_true (by simp) (by simp)
    | some before =>
      simp only [Option.mem_def, Option.some.injEq, forall_eq', Option.getD_some]
      exact preservesAccess_iff plain
  exact ⟨_, _, run_migrateAccess_slot _ threads, run_migrateAccess_slot _ cronJobs,
    and_congr (each (plain_threadsTable options) threads)
      (each (plain_cronJobsTable options) cronJobs)⟩

def gitThreadValues : List (String × SqlValue) :=
  [("id", integer 1), ("project_id", integer 1), ("worktree_path", text "/work"),
    ("title", text "Thread"), ("created_at", text "2025-01-01"), ("updated_at", text "2025-01-01"),
    ("git_access", integer 1)]

def gitThread : Row := fun column => (gitThreadValues.lookup column).getD .null

def gitThreads : RowTable where
  columns := OrderedSet.ofList (gitThreadValues.map Prod.fst)
  rows := OrderedMap.empty.set 1 gitThread

theorem mem_normalizeStoredThreadPermissions {permission : Text} {value : List Text} :
    permission ∈ normalizeStoredThreadPermissions localeLe value ↔
      (∃ item ∈ value, JsText.trim item = permission) ∧
        isStoredThreadPermission permission = true := by
  rw [normalizeStoredThreadPermissions, List.mem_mergeSort]
  exact (OrderedSet.mem_ofList _ _).trans (by rw [List.mem_filter, List.mem_map])

theorem legacyPermissions_gitThread : nativePermission "git".toList ∈
    legacyPermissions localeLe gitThreads gitThread := by
  have inResolved : nativePermission "git".toList ∈ resolveInputThreadPermissions localeLe
      (accessInput localeLe (gitThreads.valueOf gitThread)) := by
    refine (mem_normalizeStoredThreadPermissions localeLe).mpr
      ⟨⟨nativePermission "git".toList, ?_, by decide⟩, by decide⟩
    refine (OrderedSet.mem_addAll _ _ _).mpr (Or.inr ?_)
    iterate 7 refine (mem_setNative_other (by decide) _).mpr ?_
    exact (OrderedSet.mem_add _ _ _).mpr (Or.inl rfl)
  exact (mem_normalizeStoredThreadPermissions localeLe).mpr ⟨⟨_, inResolved, by decide⟩, by decide⟩

theorem not_migration_preserves_access :
    ¬∀ (localeLe : Text → Text → Bool) (options : AppSchemaMigrationOptions) (before : RowTable),
      ∃ after, (migrateAccess localeLe (threadsTable options)).run (some before) =
          some (some after) ∧ PreservesAccess localeLe before after := by
  intro preserves
  let localeLe : Text → Text → Bool := fun one other => decide (one ≤ other)
  obtain ⟨after, ran, preserved⟩ := preserves localeLe ⟨[], []⟩ gitThreads
  have isMigrated : after = accessMigrated localeLe (threadsTable ⟨[], []⟩) gitThreads :=
    (Option.some.inj (Option.some.inj ((run_migrateAccess localeLe _ _).symm.trans ran))).symm
  rw [isMigrated, preservesAccess_iff (plain_threadsTable _)] at preserved
  rcases preserved with hasUnsafe | nothing
  · exact absurd hasUnsafe (by decide)
  · have projected := legacyPermissions_gitThread localeLe
    rw [nothing 1 gitThread rfl (by decide)] at projected
    exact List.not_mem_nil projected

end Tables

end Metidos.Schema
