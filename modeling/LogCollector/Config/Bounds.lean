import LogCollector.Config.Listed
import LogCollector.Lib.Places
import LogCollector.Lib.Related

/-!
# What the tables come to

A configuration file and the plugin files it names fill arrays of fixed size, and what is
stored in them is an index later. Nothing compares a counter with the size of its array,
or a core id with the number of cores. What the tables come to can be counted in the text:
the rows with a key, the texts in brackets and the specifications of a value, from one
`end` to the next, and the rows that find an array full. Nothing is stored behind an array
and the tables are within their bounds exactly where these counts are
(`tables_bounded_iff`).
-/

namespace LogCollector

/-! ## Counts in the text -/

/-- What the rows of one plugin list is not too much, and every core id is one. A row with a
key of a regex stores into the regex behind those that `fields` rows before it finished. -/
structure ListsFit (rows : List CStr) : Prop where
  regexes : ∀ before row after, rows = before ++ row :: after → regexRow row →
    before.countP finishesRegex < MAX_REGEX_CNT
  fields : ∀ n ∈ rows.flatMap specCounts, n ≤ MAX_REGEX_FIELDS
  cores : (rows.flatMap coreTexts).length ≤ MAX_PLUGIN_CORE_CNT
  numbers : ∀ text ∈ rows.flatMap coreTexts,
    0 ≤ (coreNumber text).toInt ∧ (coreNumber text).toInt < MAX_CORE_NUM

/-- What the rows of a configuration file and those of its plugin files list is not too
much. A row that stores something stores into the plugin behind those that `end` rows before
it finished. -/
structure FilesFit (cfg plgn : List CStr) : Prop where
  plugin_files : (configValues (.lit "plugin_file") cfg).length ≤ MAX_PLUGIN_CNT
  udp_sockets : (configValues (.lit "udp_socket") cfg).length ≤ MAX_UDP_SOCKET_CNT
  plugins : ∀ before row after, plgn = before ++ row :: after → storesRow row →
    before.countP endsPlugin < MAX_PLUGIN_CNT
  lists : ∀ rows ∈ plgn.splitOnP endsPlugin, ListsFit rows

/-! ## The tables -/

/-- The arrays of a slot are long enough, and every core id is one. -/
structure SlotBounded (p : PluginData) : Prop where
  regex_cnt : p.regex.length ≤ MAX_REGEX_CNT
  field_cnt : ∀ rgx ∈ p.regex, rgx.fields.length ≤ MAX_REGEX_FIELDS
  core_id_num : p.core_ids.length ≤ MAX_PLUGIN_CORE_CNT
  core_ids : ∀ c ∈ p.core_ids, 0 ≤ c.toInt ∧ c.toInt < MAX_CORE_NUM

/-- The slots of a table, the one that is being filled with them. -/
def PluginState.slots (s : PluginState) : List PluginData := s.entries ++ [s.slot]

/-- The tables are within their bounds. -/
structure TablesBounded (config : ConfigData) (s : PluginState) : Prop where
  plugin_file_cnt : config.plugin_file.length ≤ MAX_PLUGIN_CNT
  listen_addr_cnt : config.listen_addr_str.length ≤ MAX_UDP_SOCKET_CNT
  plugin_cnt : s.entries.length ≤ MAX_PLUGIN_CNT
  slots : ∀ p ∈ s.slots, SlotBounded p

section

variable (inet_aton : CStr → Option UInt32)

/-- A round of the loop of `main` over `plugin_file`, without the ends of the arrays. -/
def loadFile (s : PluginState) (file : Option (List UInt8)) : Except Fault PluginState :=
  match file with
  | none => .error .exit
  | some file => (sanitizePlugin (readRows LARGEBUFLEN file)).bind (loadPlugin inet_aton s)

/-- The loop of `main` over `plugin_file`. -/
def loadFiles (s : PluginState) (files : List (Option (List UInt8))) : Except Fault PluginState :=
  files.foldlM (loadFile inet_aton) s

/-- What `main` loads: the configuration file, and the plugin files it names. `files` is
what is in a file, if it can be opened. -/
def loadTables (files : CStr → Option (List UInt8)) (cfg : Option (List UInt8)) :
    Except Fault (ConfigData × PluginState) := do
  let (res, config) ← parseConfigurationFile .zero cfg
  if res ≠ SUCCESS then .error .exit
  else
    let s ← loadFiles inet_aton .start (config.plugin_file.map files)
    .ok (config, s)

end

/-- The sanitized rows of a file that can be sanitized. -/
def sanitizedRows (file : Option (List UInt8)) : List CStr :=
  match file.map fun file => (readRows LARGEBUFLEN file).mapM sanitizeRow with
  | some (.ok rows) => rows
  | _ => []

/-- The sanitized rows of the plugin files that a configuration file names. -/
def pluginRows (files : CStr → Option (List UInt8)) (cfg : Option (List UInt8)) : List CStr :=
  (configValues (.lit "plugin_file") (sanitizedRows cfg)).flatMap fun name =>
    sanitizedRows (files name)

/-! ## The lists of a configuration file -/

section

variable {key value row : CStr} {config config' : ConfigData}

/-- A handler of a text adds its value to the list of its key; any list of the configuration
may be asked for. -/
theorem textHandler_list (list : ConfigData → List CStr) {name : CStr}
    {store : CStr → ConfigData → ConfigData} {result : Int × ConfigData}
    (hstore : list (store value config) =
      if key = name then list config ++ [value] else list config)
    (h : textHandler store value config = .ok result) :
    list result.2 = list config ++ (if key = name ∧ value ≠ .empty then [value] else []) := by
  unfold textHandler at h
  split at h
  · next hvalue =>
    cases h
    rw [if_neg fun hkey => hkey.2 hvalue, List.append_nil]
  · next hvalue =>
    cases h
    dsimp only
    rw [hstore]
    by_cases hkey : key = name
    · rw [if_pos hkey, if_pos ⟨hkey, hvalue⟩]
    · rw [if_neg hkey, if_neg fun hboth => hkey hboth.1, List.append_nil]

/-- A handler that stores in another member adds to no list. -/
theorem textHandler_keeps {store : CStr → ConfigData → ConfigData} {result : Int × ConfigData}
    (hfile : (store value config).plugin_file = config.plugin_file)
    (hsocket : (store value config).listen_addr_str = config.listen_addr_str)
    (h : textHandler store value config = .ok result) :
    result.2.plugin_file = config.plugin_file ∧
      result.2.listen_addr_str = config.listen_addr_str := by
  unfold textHandler at h
  split at h
  · cases h
    exact ⟨rfl, rfl⟩
  · cases h
    exact ⟨hfile, hsocket⟩

/-- A handler of a size adds to no list. -/
theorem SizeKey.handler_lists (sizeKey : SizeKey) {result : Int × ConfigData}
    (h : sizeKey.handler value config = .ok result) :
    result.2.plugin_file = config.plugin_file ∧
      result.2.listen_addr_str = config.listen_addr_str := by
  rw [SizeKey.handler_eq] at h
  cases hstored : storedSize value with
  | error fault =>
    rw [hstored] at h
    cases h
  | ok size =>
    rw [hstored] at h
    cases h
    cases sizeKey
    all_goals exact ⟨rfl, rfl⟩

/-- A handler adds its value to the list of its key. -/
theorem configHandler_lists {func : ConfigHandler} {result : Int × ConfigData}
    (hlookup : configDictionary.lookup key = some func)
    (h : func value config = .ok result) :
    result.2.plugin_file = config.plugin_file ++
        (if key = .lit "plugin_file" ∧ value ≠ .empty then [value] else []) ∧
      result.2.listen_addr_str = config.listen_addr_str ++
        (if key = .lit "udp_socket" ∧ value ≠ .empty then [value] else []) := by
  have hmem := Lib.Assoc.mem_of_lookup hlookup
  have hother (hkey : key ∉ [.lit "plugin_file", .lit "udp_socket"])
      (hkept : result.2.plugin_file = config.plugin_file ∧
        result.2.listen_addr_str = config.listen_addr_str) :
      result.2.plugin_file = config.plugin_file ++
          (if key = .lit "plugin_file" ∧ value ≠ .empty then [value] else []) ∧
        result.2.listen_addr_str = config.listen_addr_str ++
          (if key = .lit "udp_socket" ∧ value ≠ .empty then [value] else []) := by
    obtain ⟨hfile, hsocket⟩ := not_or.mp (mt List.mem_cons.mpr hkey)
    rw [if_neg fun hboth => hfile hboth.1,
      if_neg fun hboth => hsocket (List.mem_singleton.mpr hboth.1), List.append_nil,
      List.append_nil]
    exact hkept
  simp only [configDictionary, List.mem_cons, Prod.mk.injEq, List.not_mem_nil, or_false] at hmem
  rcases hmem with ⟨rfl, rfl⟩ | ⟨rfl, rfl⟩ | ⟨rfl, rfl⟩ | ⟨rfl, rfl⟩ | ⟨rfl, rfl⟩ | ⟨rfl, rfl⟩ |
    ⟨rfl, rfl⟩ | ⟨rfl, rfl⟩
  · exact ⟨textHandler_list (·.plugin_file) (if_pos rfl).symm h,
      textHandler_list (·.listen_addr_str) (if_neg (by decide)).symm h⟩
  · exact hother (by decide) (textHandler_keeps rfl rfl h)
  · exact ⟨textHandler_list (·.plugin_file) (if_neg (by decide)).symm h,
      textHandler_list (·.listen_addr_str) (if_pos rfl).symm h⟩
  · exact hother (by decide) (textHandler_keeps rfl rfl h)
  · exact hother (by decide) (textHandler_keeps rfl rfl h)
  · exact hother (by decide) (SizeKey.temp_file_size.handler_lists h)
  · exact hother (by decide) (textHandler_keeps rfl rfl h)
  · exact hother (by decide) (SizeKey.json_file_size.handler_lists h)

/-- A ROUND adds what its row has for the two keys. -/
theorem configureRow_lists (h : configureRow config row = .ok config') :
    config'.plugin_file = config.plugin_file ++
        (valueOf nameless (.lit "plugin_file") row).toList ∧
      config'.listen_addr_str = config.listen_addr_str ++
        (valueOf nameless (.lit "udp_socket") row).toList := by
  unfold configureRow at h
  split at h
  · next hempty =>
    cases h
    subst hempty
    exact ⟨(List.append_nil _).symm, (List.append_nil _).symm⟩
  · cases hsplit : splitRow row with
    | none =>
      rw [hsplit] at h
      cases h
    | some pair =>
      obtain ⟨key, value⟩ := pair
      rw [toList_valueOf nameless hsplit, toList_valueOf nameless hsplit]
      rw [hsplit] at h
      dsimp only at h
      by_cases hname : NameClosed key
      case neg =>
        rw [(cutName_outcome key).2 hname] at h
        cases h
      case pos =>
        rw [(cutName_outcome key).1 hname] at h
        dsimp only at h
        cases hlookup : configDictionary.lookup (nameless key) with
        | none =>
          rw [hlookup] at h
          cases h
          have hunknown {name : CStr} (hname : (configDictionary.lookup name).isSome) :
              ¬(nameless key = name ∧ value ≠ .empty) := by
            rintro ⟨rfl, -⟩
            rw [hlookup] at hname
            cases hname
          rw [if_neg (hunknown rfl), if_neg (hunknown rfl)]
          exact ⟨(List.append_nil _).symm, (List.append_nil _).symm⟩
        | some func =>
          rw [hlookup] at h
          dsimp only at h
          cases hfunc : func value config with
          | error fault =>
            rw [hfunc] at h
            cases h
          | ok result =>
            rw [hfunc] at h
            cases h
            exact configHandler_lists hlookup hfunc

/-- THE LISTS OF A CONFIGURATION FILE are the values its rows have. -/
theorem evaluateConfiguration_lists {rows : List CStr} : ∀ {config config' : ConfigData},
    evaluateConfiguration config rows = .ok config' →
      config'.plugin_file = config.plugin_file ++ configValues (.lit "plugin_file") rows ∧
        config'.listen_addr_str =
          config.listen_addr_str ++ configValues (.lit "udp_socket") rows := by
  unfold evaluateConfiguration
  induction rows with
  | nil =>
    intro config config' h
    cases h
    exact ⟨(List.append_nil _).symm, (List.append_nil _).symm⟩
  | cons row rows ih =>
    intro config config' h
    rw [List.foldlM_cons] at h
    obtain ⟨config₁, hrow, hrows⟩ := Lib.Fallible.bind_eq_ok.mp h
    obtain ⟨hfile, hsocket⟩ := configureRow_lists hrow
    obtain ⟨hfiles, hsockets⟩ := ih hrows
    have hcons (key : CStr) : configValues key (row :: rows) =
        (valueOf nameless key row).toList ++ configValues key rows := by
      unfold configValues
      rw [List.filterMap_cons]
      cases valueOf nameless key row with
      | none => rfl
      | some value => rfl
    rw [hfiles, hsockets, hfile, hsocket, hcons, hcons, List.append_assoc, List.append_assoc]
    exact ⟨rfl, rfl⟩

end

/-! ## The slots -/

/-- A slot holds what rows add to what was in it. -/
structure Filled (slot : PluginData) (rows : List CStr) (p : PluginData) : Prop where
  core_ids : p.core_ids = slot.core_ids ++ (rows.flatMap coreTexts).map coreNumber
  regex : p.regex.map (·.fields.length) =
    slot.regex.map (·.fields.length) ++ rows.flatMap specCounts

section

variable {slot p : PluginData} {row : CStr} {rows : List CStr} {d : Directive}

theorem regex_added (hd : d ≠ .endPlugin) : (slot.after d).regex.map (·.fields.length) =
    slot.regex.map (·.fields.length) ++ d.addedFields := by
  cases d with
  | endPlugin => exact absurd rfl hd
  | fields listed => exact List.map_append
  | _ => exact (List.append_nil _).symm

theorem filled_nil : Filled slot [] slot where
  core_ids := (List.append_nil _).symm
  regex := (List.append_nil _).symm

/-- What a row adds comes before what the rows behind it add. -/
theorem Filled.cons (hd : d ≠ .endPlugin) (hadds : AddsListed row d)
    (h : Filled (slot.after d) rows p) : Filled slot (row :: rows) p where
  core_ids := by
    rw [h.core_ids, core_ids_after hd, hadds.2.1, List.flatMap_cons, List.map_append,
      List.append_assoc]
  regex := by
    rw [h.regex, regex_added hd, hadds.2.2, List.flatMap_cons, List.append_assoc]

/-- What rows list has room in the arrays of a slot. -/
structure SlotFits (slot : PluginData) (rows : List CStr) : Prop where
  regexes : Lib.Places.Within regexRow finishesRegex MAX_REGEX_CNT slot.regex.length rows
  fields : ∀ n ∈ rows.flatMap specCounts, n ≤ MAX_REGEX_FIELDS
  cores : slot.core_ids.length + (rows.flatMap coreTexts).length ≤ MAX_PLUGIN_CORE_CNT

theorem listsFit_iff : ListsFit rows ↔ SlotFits .zero rows ∧ ∀ text ∈ rows.flatMap coreTexts,
    0 ≤ (coreNumber text).toInt ∧ (coreNumber text).toInt < MAX_CORE_NUM := by
  have hplaces : Lib.Places.Within regexRow finishesRegex MAX_REGEX_CNT
      PluginData.zero.regex.length rows ↔ ∀ before row after, rows = before ++ row :: after →
        regexRow row → before.countP finishesRegex < MAX_REGEX_CNT := by
    rw [Lib.Places.within_iff]
    simp only [PluginData.zero, List.length_nil, Nat.zero_add]
  have hroom : PluginData.zero.core_ids.length + (rows.flatMap coreTexts).length =
      (rows.flatMap coreTexts).length := Nat.zero_add _
  constructor
  · intro h
    exact ⟨⟨hplaces.mpr h.regexes, h.fields, hroom.symm ▸ h.cores⟩, h.numbers⟩
  · rintro ⟨h, hnumbers⟩
    exact ⟨hplaces.mp h.regexes, h.fields, hroom ▸ h.cores, hnumbers⟩

/-- A row finishes a regex where its value lists fields. -/
theorem length_specCounts (row : CStr) :
    (specCounts row).length = if finishesRegex row then 1 else 0 := by
  unfold specCounts finishesRegex
  cases valueOf id (.lit "fields") row with
  | none => rfl
  | some value => rfl

theorem regexRow_of_finishesRegex (h : finishesRegex row) : regexRow row := by
  obtain ⟨value, hsplit, -⟩ := splitRow_of_valueOf h
  have hkey : CStr.lit "fields" ∈ regexKeys := by decide
  unfold regexRow
  rw [hsplit]
  exact decide_eq_true hkey

theorem length_flatMap_specCounts (rows : List CStr) :
    (rows.flatMap specCounts).length = rows.countP finishesRegex := by
  induction rows with
  | nil => rfl
  | cons row rows ih =>
    rw [List.flatMap_cons, List.length_append, ih, length_specCounts, List.countP_cons,
      Nat.add_comm]

/-- A SLOT THAT IS FILLED WITHIN ITS ARRAYS is bounded exactly where every core id is one. -/
theorem slotBounded_iff (h : Filled .zero rows p) :
    SlotFits .zero rows ∧ SlotBounded p ↔ ListsFit rows := by
  have hcores : p.core_ids = (rows.flatMap coreTexts).map coreNumber := h.core_ids
  have hregex : p.regex.map (·.fields.length) = rows.flatMap specCounts := h.regex
  have hids : (∀ c ∈ p.core_ids, 0 ≤ c.toInt ∧ c.toInt < MAX_CORE_NUM) ↔
      ∀ text ∈ rows.flatMap coreTexts,
        0 ≤ (coreNumber text).toInt ∧ (coreNumber text).toInt < MAX_CORE_NUM := by
    rw [hcores]
    exact List.forall_mem_map
  rw [listsFit_iff]
  refine and_congr_right fun hfits =>
    ⟨fun hp => hids.mp hp.core_ids, fun hnumbers => ⟨?_, ?_, ?_, hids.mpr hnumbers⟩⟩
  · have hle := hfits.regexes.count_le (fun _ _ => regexRow_of_finishesRegex) (Nat.zero_le _)
    have hcount : p.regex.length = rows.countP finishesRegex := by
      rw [← length_flatMap_specCounts, ← hregex, List.length_map]
    rw [hcount]
    exact Nat.zero_add (rows.countP finishesRegex) ▸ hle
  · have hfields := hfits.fields
    rw [← hregex] at hfields
    exact List.forall_mem_map.mp hfields
  · have hle := hfits.cores
    rw [hcores, List.length_map]
    exact Nat.zero_add (rows.flatMap coreTexts).length ▸ hle

end

section

variable {inet_aton : CStr → Option UInt32}

/-- A row is loaded as its directive. -/
theorem loadRow_ok {s s' : PluginState} {row : CStr} (h : loadRow inet_aton s row = .ok s') :
    ∃ d, loadDirective inet_aton row = .ok d ∧ s' = s.load d := by
  unfold loadRow at h
  cases hload : loadDirective inet_aton row with
  | error fault =>
    rw [hload] at h
    cases h
  | ok d =>
    rw [hload] at h
    cases h
    exact ⟨d, rfl, rfl⟩

/-- THE SLOTS OF A RUN are filled by the rows from one `end` to the next, and as many
plugins are finished as there are of these. -/
theorem loadPlugin_slots {rows : List CStr} : ∀ {s s' : PluginState},
    loadPlugin inet_aton s rows = .ok s' →
      s'.entries.length = s.entries.length + rows.countP endsPlugin ∧
        ∃ stretch stretches p ps, rows.splitOnP endsPlugin = stretch :: stretches ∧
          s'.slots = s.entries ++ p :: ps ∧ Filled s.slot stretch p ∧
            List.Forall₂ (Filled .zero) stretches ps := by
  unfold loadPlugin
  induction rows with
  | nil =>
    intro s s' h
    cases h
    exact ⟨rfl, [], [], s.slot, [], rfl, rfl, filled_nil, .nil⟩
  | cons row rows ih =>
    intro s s' h
    rw [List.foldlM_cons] at h
    obtain ⟨s₁, hrow, hrows⟩ := Lib.Fallible.bind_eq_ok.mp h
    obtain ⟨d, hload, rfl⟩ := loadRow_ok hrow
    have hadds := addsListed_of_load hload
    obtain ⟨hcount, stretch, stretches, p, ps, hsplit, hslots, hfirst, hrest⟩ := ih hrows
    rw [List.splitOnP_cons_eq_if_modifyHead, hsplit]
    by_cases hd : d = .endPlugin
    · have hend := hadds.1.mp hd
      subst hd
      refine ⟨?_, [], stretch :: stretches, s.slot, p :: ps, if_pos hend, ?_, filled_nil,
        .cons hfirst hrest⟩
      · rw [hcount, List.countP_cons_of_pos hend]
        show (s.entries ++ [s.slot]).length + _ = _
        rw [List.length_append, List.length_singleton]
        omega
      · rw [hslots]
        show (s.entries ++ [s.slot]) ++ p :: ps = _
        rw [List.append_assoc]
        rfl
    · have hend : ¬endsPlugin row := fun h => hd (hadds.1.mpr h)
      have hentries : (s.load d).entries = s.entries := by
        show s.entries ++ (if d = .endPlugin then [s.slot] else []) = _
        rw [if_neg hd, List.append_nil]
      rw [hentries] at hcount hslots
      refine ⟨?_, row :: stretch, stretches, p, ps, if_neg hend, hslots, hfirst.cons hd hadds,
        hrest⟩
      rw [hcount, List.countP_cons_of_neg hend]

end

/-! ## Room -/

section

variable {inet_aton : CStr → Option UInt32}

theorem hasRoom_iff {slot : PluginData} {d : Directive}
    (hcores : slot.core_ids.length ≤ MAX_PLUGIN_CORE_CNT) :
    slot.hasRoom d ↔ slot.core_ids.length + d.addedCores.length ≤ MAX_PLUGIN_CORE_CNT ∧
      (d.ofRegex → slot.regex.length < MAX_REGEX_CNT) := by
  cases d with
  | coreId core_ids => simp [PluginData.hasRoom, Directive.addedCores, Directive.ofRegex]
  | _ => simp [PluginData.hasRoom, Directive.addedCores, Directive.ofRegex, hcores]

theorem fits_iff {d : Directive} (hcores : d.addedCores.length ≤ MAX_PLUGIN_CORE_CNT) :
    d.fits ↔ ∀ n ∈ d.addedFields, n ≤ MAX_REGEX_FIELDS := by
  cases d with
  | coreId core_ids =>
    simpa [Directive.fits, Directive.addedFields, Directive.addedCores] using hcores
  | fields fields => simp [Directive.fits, Directive.addedFields]
  | _ => simp [Directive.fits, Directive.addedFields]

/-- A directive that there is room for succeeds where it finds a plugin to store into. -/
theorem apply_eq_ok_iff {s : PluginState} {d : Directive} (hroom : s.slot.hasRoom d) :
    d.apply s = .ok (s.load d) ↔ (d ≠ .ignored → s.entries.length < MAX_PLUGIN_CNT) := by
  have hfree : ¬s.slot.hasRoom d = false := by
    rw [hroom]
    exact Bool.noConfusion
  constructor
  · intro happly hd
    unfold Directive.apply at happly
    rw [if_neg hd, if_neg hfree] at happly
    split at happly
    · assumption
    · cases happly
  · intro hplugin
    rcases apply_of_room hroom with ⟨s', happly⟩ | hfull
    · rw [happly, (apply_ok happly).2]
      rfl
    · unfold Directive.apply at hfull
      split at hfull
      · cases hfull
      · next hd =>
        rw [if_pos (hplugin hd)] at hfull
        cases hfull

/-- A ROW STAYS WITHIN THE ARRAYS where it finds the plugin and the regex that it uses, and
what it lists has room. -/
theorem evaluateRow_iff {s : PluginState} {row : CStr} {d : Directive}
    (hload : loadDirective inet_aton row = .ok d)
    (hcores : s.slot.core_ids.length ≤ MAX_PLUGIN_CORE_CNT) :
    evaluateRow inet_aton s row = .ok (s.load d) ↔
      (storesRow row → s.entries.length < MAX_PLUGIN_CNT) ∧
        (regexRow row → s.slot.regex.length < MAX_REGEX_CNT) ∧
          s.slot.core_ids.length + (coreTexts row).length ≤ MAX_PLUGIN_CORE_CNT ∧
            ∀ n ∈ specCounts row, n ≤ MAX_REGEX_FIELDS := by
  have hadds := addsListed_of_load hload
  have huses := usesSlot_of_load hload
  have hlength : (coreTexts row).length = d.addedCores.length := by
    rw [hadds.2.1, List.length_map]
  have hround : evaluateRow inet_aton s row = (fitted d).bind (Directive.apply s) := by
    rw [evaluateRow_eq, readDirective_eq, hload]
    rfl
  rw [hround, ← huses.stores, ← huses.ofRegex, hlength, ← hadds.2.2]
  constructor
  · intro hok
    obtain ⟨d', hfitted, happly⟩ := Lib.Fallible.bind_eq_ok.mp hok
    unfold fitted at hfitted
    split at hfitted
    · next hfits =>
      cases hfitted
      obtain ⟨hroom, -⟩ := apply_ok happly
      obtain ⟨hadded, hregex⟩ := (hasRoom_iff hcores).mp hroom
      exact ⟨(apply_eq_ok_iff hroom).mp happly, hregex, hadded, (fits_iff (by omega)).mp hfits⟩
    · cases hfitted
  · rintro ⟨hplugin, hregex, hadded, hfields⟩
    have hfits : d.fits := (fits_iff (by omega)).mpr hfields
    have hroom : s.slot.hasRoom d := (hasRoom_iff hcores).mpr ⟨hadded, hregex⟩
    have hfitted : fitted d = .ok d := if_pos hfits
    rw [hfitted]
    exact (apply_eq_ok_iff hroom).mpr hplugin

/-- What rows list has room in a slot where the first has, and the others have in what it
leaves. -/
theorem slotFits_cons {slot : PluginData} {row : CStr} {rows : List CStr} {d : Directive}
    (hd : d ≠ .endPlugin) (hadds : AddsListed row d) : SlotFits slot (row :: rows) ↔
      ((regexRow row → slot.regex.length < MAX_REGEX_CNT) ∧
        slot.core_ids.length + (coreTexts row).length ≤ MAX_PLUGIN_CORE_CNT ∧
          ∀ n ∈ specCounts row, n ≤ MAX_REGEX_FIELDS) ∧ SlotFits (slot.after d) rows := by
  have hregex : (slot.after d).regex.length =
      slot.regex.length + if finishesRegex row then 1 else 0 := by
    have hadded : (slot.after d).regex.map (·.fields.length) = _ := regex_added hd
    have hlength := congrArg List.length hadded
    rw [hadds.2.2, List.length_append, List.length_map, List.length_map] at hlength
    rw [hlength, length_specCounts]
  have hcores : (slot.after d).core_ids.length =
      slot.core_ids.length + (coreTexts row).length := by
    rw [core_ids_after hd, hadds.2.1, List.length_append, List.length_map]
  constructor
  · intro h
    have hall := h.cores
    rw [List.flatMap_cons, List.length_append] at hall
    have hfields := h.fields
    rw [List.flatMap_cons, List.forall_mem_append] at hfields
    refine ⟨⟨h.regexes.1, by omega, hfields.1⟩, hregex ▸ h.regexes.2, hfields.2, ?_⟩
    omega
  · rintro ⟨⟨hfirst, hadded, hcounts⟩, h⟩
    have hall := h.cores
    refine ⟨⟨hfirst, hregex ▸ h.regexes⟩, ?_, ?_⟩
    · rw [List.flatMap_cons, List.forall_mem_append]
      exact ⟨hcounts, h.fields⟩
    · rw [List.flatMap_cons, List.length_append]
      omega

theorem slotFits_nil {slot : PluginData} (h : slot.core_ids.length ≤ MAX_PLUGIN_CORE_CNT) :
    SlotFits slot [] where
  regexes := trivial
  fields _ hn := absurd hn List.not_mem_nil
  cores := h

/-- A row that ends a plugin takes the table to the next one. -/
theorem length_entries_load (s : PluginState) {row : CStr} {d : Directive}
    (hadds : AddsListed row d) :
    (s.load d).entries.length = s.entries.length + if endsPlugin row then 1 else 0 := by
  show (s.entries ++ if d = .endPlugin then [s.slot] else []).length = _
  rw [List.length_append]
  by_cases hd : d = .endPlugin
  · rw [if_pos hd, if_pos (hadds.1.mp hd), List.length_singleton]
  · rw [if_neg hd, if_neg fun h => hd (hadds.1.mpr h), List.length_nil]

/-- A round that stays within the arrays ends as it does without their ends. -/
theorem evaluateRows_cons_iff {s s₁ s' : PluginState} {row : CStr} {rows : List CStr}
    (hrow : loadRow inet_aton s row = .ok s₁) :
    (row :: rows).foldlM (evaluateRow inet_aton) s = .ok s' ↔
      evaluateRow inet_aton s row = .ok s₁ ∧
        rows.foldlM (evaluateRow inet_aton) s₁ = .ok s' := by
  rw [List.foldlM_cons]
  constructor
  · intro h
    obtain ⟨s₂, hfirst, hrest⟩ := Lib.Fallible.bind_eq_ok.mp h
    obtain rfl : s₁ = s₂ := Except.ok.inj (hrow.symm.trans (evaluateRow_ok hfirst))
    exact ⟨hfirst, hrest⟩
  · rintro ⟨hfirst, hrest⟩
    rw [hfirst]
    exact hrest

/-- A RUN STAYS WITHIN THE ARRAYS where every row that stores finds a plugin that is there,
and what the rows of each plugin list has room in it. -/
theorem evaluatePlugin_iff {rows : List CStr} : ∀ {s s' : PluginState},
    loadPlugin inet_aton s rows = .ok s' → s.slot.core_ids.length ≤ MAX_PLUGIN_CORE_CNT →
      ∀ {stretch stretches}, rows.splitOnP endsPlugin = stretch :: stretches →
        (evaluatePlugin inet_aton s rows = .ok s' ↔
          Lib.Places.Within storesRow endsPlugin MAX_PLUGIN_CNT s.entries.length rows ∧
            SlotFits s.slot stretch ∧ ∀ rows ∈ stretches, SlotFits .zero rows) := by
  unfold loadPlugin evaluatePlugin
  induction rows with
  | nil =>
    intro s s' hload hcores stretch stretches hsplit
    cases hload
    cases hsplit
    exact iff_of_true rfl ⟨trivial, slotFits_nil hcores,
      fun rows hrows => absurd hrows List.not_mem_nil⟩
  | cons row rows ih =>
    intro s s' hload hcores stretch stretches hsplit
    rw [List.foldlM_cons] at hload
    obtain ⟨s₁, hrow, hrows⟩ := Lib.Fallible.bind_eq_ok.mp hload
    obtain ⟨d, hread, rfl⟩ := loadRow_ok hrow
    have hadds := addsListed_of_load hread
    rw [evaluateRows_cons_iff hrow, evaluateRow_iff hread hcores]
    obtain ⟨next, others, hrest⟩ : ∃ next others, rows.splitOnP endsPlugin = next :: others :=
      List.exists_cons_of_ne_nil (List.splitOnP_ne_nil _ _)
    rw [List.splitOnP_cons_eq_if_modifyHead, hrest] at hsplit
    rw [Lib.Places.Within, ← length_entries_load s hadds]
    by_cases hd : d = .endPlugin
    · rw [if_pos (hadds.1.mp hd)] at hsplit
      obtain ⟨rfl, rfl⟩ := List.cons.inj hsplit
      subst hd
      have hnone : coreTexts row = [] := List.map_eq_nil_iff.mp hadds.2.1.symm
      have hnoregex : ¬regexRow row := fun h =>
        Bool.false_ne_true ((usesSlot_of_load hread).ofRegex.mpr h)
      rw [ih hrows (Nat.zero_le _) hrest, ← hadds.2.2, hnone, List.forall_mem_cons]
      constructor
      · rintro ⟨⟨hplugin, -⟩, hwithin, hfits⟩
        exact ⟨⟨hplugin, hwithin⟩, slotFits_nil hcores, hfits⟩
      · rintro ⟨⟨hplugin, hwithin⟩, -, hfits⟩
        exact ⟨⟨hplugin, fun h => absurd h hnoregex, hcores,
          fun n hn => absurd hn List.not_mem_nil⟩, hwithin, hfits⟩
    · rw [if_neg fun h => hd (hadds.1.mpr h)] at hsplit
      obtain ⟨rfl, rfl⟩ := List.cons.inj hsplit
      rw [slotFits_cons hd hadds]
      constructor
      · rintro ⟨⟨hplugin, hfirst⟩, hrun⟩
        have hroom : (s.load d).slot.core_ids.length ≤ MAX_PLUGIN_CORE_CNT := by
          show (s.slot.after d).core_ids.length ≤ _
          rw [core_ids_after hd, hadds.2.1, List.length_append, List.length_map]
          exact hfirst.2.1
        obtain ⟨hwithin, hfits, hothers⟩ := (ih hrows hroom hrest).mp hrun
        exact ⟨⟨hplugin, hwithin⟩, ⟨hfirst, hfits⟩, hothers⟩
      · rintro ⟨⟨hplugin, hwithin⟩, ⟨hfirst, hfits⟩, hothers⟩
        have hroom : (s.load d).slot.core_ids.length ≤ MAX_PLUGIN_CORE_CNT :=
          (Nat.le_add_right _ _).trans hfits.cores
        exact ⟨⟨hplugin, hfirst⟩, (ih hrows hroom hrest).mpr ⟨hwithin, hfits, hothers⟩⟩

end

/-! ## Files -/

section

variable {inet_aton : CStr → Option UInt32} {files : CStr → Option (List UInt8)}

/-- A file is loaded by its sanitized rows. -/
theorem sanitizedRows_of_ok {file : List UInt8} {rows : List CStr}
    (h : (readRows LARGEBUFLEN file).mapM sanitizeRow = .ok rows) :
    sanitizedRows (some file) = rows := by
  unfold sanitizedRows
  rw [Option.map_some, h]

theorem loadFile_rows {s s' : PluginState} {file : Option (List UInt8)}
    (h : loadFile inet_aton s file = .ok s') :
    loadPlugin inet_aton s (sanitizedRows file) = .ok s' := by
  cases file with
  | none => cases h
  | some file =>
    obtain ⟨rows, hrows, hload⟩ := Lib.Fallible.bind_eq_ok.mp h
    rw [sanitizedRows_of_ok hrows]
    exact hload

/-- Files are loaded as the rows of all of them. -/
theorem loadFiles_rows {names : List CStr} : ∀ {s s' : PluginState},
    loadFiles inet_aton s (names.map files) = .ok s' →
      loadPlugin inet_aton s (names.flatMap fun name => sanitizedRows (files name)) = .ok s' := by
  unfold loadFiles
  induction names with
  | nil => exact fun h => h
  | cons name names ih =>
    intro s s' h
    rw [List.map_cons, List.foldlM_cons] at h
    obtain ⟨s₁, hfile, hfiles⟩ := Lib.Fallible.bind_eq_ok.mp h
    have hfirst := loadFile_rows hfile
    unfold loadPlugin at hfirst
    rw [List.flatMap_cons, loadPlugin, List.foldlM_append, hfirst]
    exact ih hfiles

/-- A file that is loaded once is parsed by its rows from any state. -/
theorem parseNext_rows {s s' : PluginState} {file : Option (List UInt8)}
    (h : loadFile inet_aton s file = .ok s') (s₀ : PluginState) :
    parseNext inet_aton s₀ file = evaluatePlugin inet_aton s₀ (sanitizedRows file) := by
  cases file with
  | none => cases h
  | some file =>
    obtain ⟨rows, hrows, -⟩ := Lib.Fallible.bind_eq_ok.mp h
    rw [parseNext_some, hrows, sanitizedRows_of_ok hrows]
    rfl

/-- And so are files. -/
theorem parsePluginFiles_rows {names : List CStr} : ∀ {s s' : PluginState},
    loadFiles inet_aton s (names.map files) = .ok s' → ∀ s₀ : PluginState,
      parsePluginFiles inet_aton s₀ (names.map files) =
        evaluatePlugin inet_aton s₀ (names.flatMap fun name => sanitizedRows (files name)) := by
  unfold loadFiles parsePluginFiles
  induction names with
  | nil => exact fun _ _ => rfl
  | cons name names ih =>
    intro s s' h s₀
    rw [List.map_cons, List.foldlM_cons] at h
    obtain ⟨s₁, hfile, hfiles⟩ := Lib.Fallible.bind_eq_ok.mp h
    rw [List.map_cons, List.foldlM_cons, parseNext_rows hfile, List.flatMap_cons]
    unfold evaluatePlugin
    rw [List.foldlM_append]
    congr 1
    funext s₂
    exact ih hfiles s₂

/-- What is loaded comes from the rows of the files, and so does what is parsed. -/
theorem loadTables_rows {cfg : Option (List UInt8)} {config : ConfigData} {s : PluginState}
    (h : loadTables inet_aton files cfg = .ok (config, s)) :
    config.plugin_file = configValues (.lit "plugin_file") (sanitizedRows cfg) ∧
      config.listen_addr_str = configValues (.lit "udp_socket") (sanitizedRows cfg) ∧
        loadPlugin inet_aton .start (pluginRows files cfg) = .ok s ∧
          parsePluginFiles inet_aton .start (config.plugin_file.map files) =
            evaluatePlugin inet_aton .start (pluginRows files cfg) := by
  cases cfg with
  | none => cases h
  | some file =>
    obtain ⟨result, hparse, htables⟩ := Lib.Fallible.bind_eq_ok.mp h
    obtain ⟨rows, hrows, hconfig⟩ := Lib.Fallible.bind_eq_ok.mp hparse
    obtain ⟨config', hevaluate, hresult⟩ := Lib.Fallible.bind_eq_ok.mp hconfig
    cases hresult
    obtain ⟨s', hfiles, hpair⟩ := Lib.Fallible.bind_eq_ok.mp htables
    cases hpair
    obtain ⟨hplugin, hsocket⟩ := evaluateConfiguration_lists hevaluate
    replace hplugin : config.plugin_file = configValues (.lit "plugin_file") rows := hplugin
    unfold pluginRows
    rw [sanitizedRows_of_ok hrows, ← hplugin]
    exact ⟨rfl, hsocket, loadFiles_rows hfiles, parsePluginFiles_rows hfiles .start⟩

/-- Every row that finishes a plugin stores into one. -/
theorem storesRow_of_endsPlugin {row : CStr} (h : endsPlugin row) : storesRow row := by
  obtain ⟨value, hsplit, hvalue⟩ := splitRow_of_valueOf h
  unfold storesRow
  rw [hsplit]
  exact decide_eq_true hvalue

/-- THE TABLES ARE WITHIN THEIR BOUNDS exactly where what the rows of the files list is: the
plugin files are parsed into the arrays of the table without a store behind one of them, and
every counter and core id is one that its array has. -/
theorem tables_bounded_iff (inet_aton : CStr → Option UInt32)
    (files : CStr → Option (List UInt8)) {cfg : Option (List UInt8)} {config : ConfigData}
    {s : PluginState} (h : loadTables inet_aton files cfg = .ok (config, s)) :
    parsePluginFiles inet_aton .start (config.plugin_file.map files) = .ok s ∧
        TablesBounded config s ↔
      FilesFit (sanitizedRows cfg) (pluginRows files cfg) := by
  obtain ⟨hplugins, hsockets, hload, hparse⟩ := loadTables_rows h
  obtain ⟨hcount, stretch, stretches, p, ps, hsplit, hslots, hfirst, hrest⟩ :=
    loadPlugin_slots hload
  have hfilled : List.Forall₂ (Filled .zero) (stretch :: stretches) (p :: ps) :=
    .cons hfirst hrest
  have hends : s.entries.length = (pluginRows files cfg).countP endsPlugin :=
    hcount.trans (Nat.zero_add _)
  have hplaces : Lib.Places.Within storesRow endsPlugin MAX_PLUGIN_CNT
      PluginState.start.entries.length (pluginRows files cfg) ↔ ∀ before row after,
        pluginRows files cfg = before ++ row :: after → storesRow row →
          before.countP endsPlugin < MAX_PLUGIN_CNT := by
    rw [Lib.Places.within_iff]
    simp only [PluginState.start, List.length_nil, Nat.zero_add]
  have hrun : evaluatePlugin inet_aton .start (pluginRows files cfg) = .ok s ↔ _ :=
    evaluatePlugin_iff hload (Nat.zero_le _) hsplit
  have hlists : (∀ rows ∈ stretch :: stretches, SlotFits .zero rows) ∧
      (∀ p ∈ s.slots, SlotBounded p) ↔
        ∀ rows ∈ (pluginRows files cfg).splitOnP endsPlugin, ListsFit rows := by
    rw [hslots, hsplit]
    exact Lib.Related.forall_and_iff (R := Filled .zero) (fun _ _ h => slotBounded_iff h) hfilled
  rw [hparse, hrun, hplaces]
  constructor
  · rintro ⟨⟨hplugin, hfits, hothers⟩, hbounded⟩
    refine ⟨?_, ?_, hplugin, hlists.mp ⟨List.forall_mem_cons.mpr ⟨hfits, hothers⟩, ?_⟩⟩
    · exact hplugins ▸ hbounded.plugin_file_cnt
    · exact hsockets ▸ hbounded.listen_addr_cnt
    · exact hbounded.slots
  · intro hfit
    obtain ⟨hroom, hslots⟩ := hlists.mpr hfit.lists
    obtain ⟨hfits, hothers⟩ := List.forall_mem_cons.mp hroom
    refine ⟨⟨hfit.plugins, hfits, hothers⟩, ?_, ?_, ?_, hslots⟩
    · exact hplugins ▸ hfit.plugin_files
    · exact hsockets ▸ hfit.udp_sockets
    · have hle := (hplaces.mpr hfit.plugins).count_le (fun _ _ => storesRow_of_endsPlugin)
        (Nat.zero_le _)
      exact hends.trans_le (Nat.zero_add ((pluginRows files cfg).countP endsPlugin) ▸ hle)

end

/-- A configuration file that names a plugin file. -/
def namingFile (name : String) : Option (List UInt8) := fileOf ("plugin_file: " ++ name ++ "\n")

/-- Two plugins with a core and a regex each, one whose core id is no number, and as many
plugins as the table has, with a row behind them. -/
def listedFiles (name : CStr) : Option (List UInt8) :=
  if name = .lit "good" then
    fileOf ("core_id: [7]\nfields: [k:v]\nend: end\n" ++
      "core_id: [8][47]\nregex_id: 2\nfields: [k:v]\nend: end\n")
  else if name = .lit "bad" then fileOf "core_id: [x]\nend: end\n"
  else if name = .lit "full" then
    fileOf (String.join (List.replicate 32 "end: end\n") ++ "plugin_id: 5\n")
  else none

def namingConfig (name : String) : ConfigData :=
  { setDefaultConfigValues .zero with plugin_file := [.lit name] }

def goodEntry (id : Int32) (core_ids : List Int32) : PluginData :=
  { PluginData.zero with
    core_ids := core_ids
    regex := [⟨{ RegexHead.zero with id := id }, [⟨.lit "k", .lit "v", none, false, false⟩]⟩] }

theorem tables_bounded_good : FilesFit (sanitizedRows (namingFile "good"))
    (pluginRows listedFiles (namingFile "good")) := by
  have hentry (id : Int32) {core_ids : List Int32} (hcount : core_ids.length ≤ MAX_PLUGIN_CORE_CNT)
      (hids : ∀ c ∈ core_ids, 0 ≤ c.toInt ∧ c.toInt < MAX_CORE_NUM) :
      SlotBounded (goodEntry id core_ids) := by
    refine ⟨?_, ?_, hcount, hids⟩
    · show 1 ≤ MAX_REGEX_CNT
      decide
    · intro rgx hrgx
      obtain rfl := List.mem_singleton.mp hrgx
      show 1 ≤ MAX_REGEX_FIELDS
      decide
  have hload : loadTables exampleAton listedFiles (namingFile "good") =
      .ok (namingConfig "good", ⟨[goodEntry 0 [7], goodEntry 2 [8, 47]], .zero⟩) := by
    decide +kernel
  refine (tables_bounded_iff exampleAton listedFiles hload).mp
    ⟨by decide +kernel, by decide, by decide, by decide, ?_⟩
  intro p hp
  simp only [PluginState.slots, List.cons_append, List.nil_append, List.mem_cons,
    List.not_mem_nil, or_false] at hp
  rcases hp with rfl | rfl | rfl
  · refine hentry 0 (by decide) fun c hc => ?_
    obtain rfl := List.mem_singleton.mp hc
    exact ⟨by decide, by decide⟩
  · refine hentry 2 (by decide) fun c hc => ?_
    rcases List.mem_cons.mp hc with rfl | hc
    · exact ⟨by decide, by decide⟩
    · obtain rfl := List.mem_singleton.mp hc
      exact ⟨by decide, by decide⟩
  · exact ⟨by decide, by decide, by decide, fun c hc => absurd hc List.not_mem_nil⟩

/-- A row behind the last plugin of a full table is stored behind the table. -/
example : parsePluginFiles exampleAton .start [listedFiles (.lit "full")] =
    .error .tableFull := by
  decide +kernel

/-- A core id that is no number is stored as -1. -/
theorem misspelled_core_stored :
    loadTables exampleAton listedFiles (namingFile "bad") =
        .ok (namingConfig "bad", ⟨[{ PluginData.zero with core_ids := [-1] }], .zero⟩) ∧
      parsePluginFiles exampleAton .start [listedFiles (.lit "bad")] =
          .ok ⟨[{ PluginData.zero with core_ids := [-1] }], .zero⟩ ∧
        ¬TablesBounded (namingConfig "bad")
          ⟨[{ PluginData.zero with core_ids := [-1] }], .zero⟩ := by
  refine ⟨by decide +kernel, by decide +kernel, ?_⟩
  intro h
  have hslot := h.slots { PluginData.zero with core_ids := [-1] } List.mem_cons_self
  exact absurd (hslot.core_ids (-1) List.mem_cons_self).1 (by decide)

end LogCollector
