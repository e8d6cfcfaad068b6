import Stencil.Engine.Basic
import Stencil.Proofs.Except

/-!
# Reading a configuration

`EngineConfig.ofEntries` reads a mapping of anything to anything.  `EngineConfig.ReadsAs` says
which configuration a mapping stands for, setting by setting and without an order of checks, and
`EngineConfig.ofEntries_eq_ok_iff` that this is the one that is read: a mapping that stands for no
configuration is refused.

Nothing has to be looked at twice afterwards.  A configuration that was read has delimiters that
can be scanned for, a way of escaping that exists and bounds that hold, so its options are those of
a compilation, and an engine can be made for it if the directory of its partials can be one.  A
mapping that is refused is told why in the words of a configuration, if its keys are texts.
`EngineConfig.ofEntries_usable` puts both together.
-/

set_option autoImplicit false

namespace Stencil

/-! ## Names of settings -/

namespace EngineConfig

variable {entries : List (Value × Value)} {base : Option FilePath} {α β : Type}

/-- The keys of a mapping that are not the name of a setting. -/
def unknownKeys (entries : List (Value × Value)) : List Value :=
  (entries.map (·.1)).filter fun key => !key.asText?.any settings.contains

theorem unknownKeys_eq_nil_iff :
    unknownKeys entries = [] ↔
      ∀ entry ∈ entries, ∃ name ∈ settings, entry.1.asText? = some name := by
  rw [unknownKeys, List.filter_eq_nil_iff]
  simp [Option.any_eq_true, and_comm]

theorem areOrdered_of_isSome {a b : Value} (ha : a.asText?.isSome) (hb : b.asText?.isSome) :
    areOrdered a b = true := by
  rw [areOrdered, ha, hb]
  rfl

/-- The names of settings are in order, or some keys are unknown; what is said of those is about
the configuration if they are texts. -/
theorem unknownSettings?_spec (entries : List (Value × Value)) :
    unknownSettings? entries = none ∧ unknownKeys entries = [] ∨
      ∃ e, unknownSettings? entries = some e ∧ unknownKeys entries ≠ [] ∧
        (e.isReport = true ↔ ∀ key ∈ unknownKeys entries, key.asText?.isSome) := by
  rw [unknownSettings?, ← unknownKeys, List.partition_eq_filter_filter]
  generalize unknownKeys entries = unknown
  dsimp only
  cases hothers : unknown.filter (not ∘ fun key : Value => key.asText?.isSome) with
  | nil =>
    have htexts : ∀ key ∈ unknown, key.asText?.isSome := by
      simpa [List.filter_eq_nil_iff, Option.isSome_iff_ne_none] using hothers
    rw [List.filter_eq_self.2 htexts, List.nil_append]
    cases unknown with
    | nil => exact .inl ⟨rfl, rfl⟩
    | cons key keys =>
      have hkey := htexts key List.mem_cons_self
      have hordered : keys.find? (fun other => !areOrdered key other) = none := by
        rw [List.find?_eq_none]
        intro other hother
        simp [areOrdered_of_isSome hkey (htexts other (List.mem_cons_of_mem _ hother))]
      dsimp only
      rw [hordered]
      dsimp only
      rw [if_pos hkey]
      exact .inr ⟨_, rfl, nofun, ⟨fun _ => htexts, fun _ => rfl⟩⟩
  | cons key keys =>
    -- a key that is no text comes first, whatever it is compared to
    have hfirst : key ∈ unknown.filter _ := hothers ▸ List.mem_cons_self
    obtain ⟨hkey, hnoText⟩ := List.mem_filter.1 hfirst
    have hnone : ¬ key.asText?.isSome = true := by simpa using hnoText
    have hnotAll : ¬ ∀ other ∈ unknown, other.asText?.isSome := fun h => hnone (h key hkey)
    have hne : unknown ≠ [] := List.ne_nil_of_mem hkey
    rw [List.cons_append]
    dsimp only
    cases (keys ++ unknown.filter fun key => key.asText?.isSome).find? fun other =>
        !areOrdered key other with
    | some other => exact .inr ⟨_, rfl, hne, ⟨nofun, fun h => absurd h hnotAll⟩⟩
    | none =>
      dsimp only
      rw [if_neg hnone]
      exact .inr ⟨_, rfl, hne, ⟨nofun, fun h => absurd h hnotAll⟩⟩

/-! ## Settings -/

/-- What is read for a setting: from the value that a mapping gives it, or else `standard`. -/
def given (entries : List (Value × Value)) (name : Text) (read : Value → Except ConfigError α)
    (standard : α) : Except ConfigError α :=
  match Value.valueAt? entries name with
  | some v => read v
  | none => .ok standard

/-- The name of the way of escaping that a setting gives. -/
def readEscape (v : Value) : Except ConfigError Text :=
  if (EscapeMode.ofName? v.plainText).isSome then .ok v.plainText
  else .error (.unknownEscape v.plainText)

theorem given_flag (name : Text) :
    readFlag name ((Value.valueAt? entries name).getD (.bool false)) =
      given entries name (readFlag name) false := by
  rw [given]
  cases Value.valueAt? entries name <;> rfl

/-- A configuration is read setting by setting. -/
theorem ofEntries_eq (entries : List (Value × Value)) (base : Option FilePath) :
    ofEntries entries base =
      match unknownSettings? entries with
      | some e => .error e
      | none =>
        (given entries "delimiters" readDelimiters standard.delimiters).bind fun delimiters =>
        (given entries "escape" readEscape standard.escape).bind fun escape =>
        (given entries "string_params" (readFlag "string_params") false).bind fun stringParams =>
        (given entries "strict_mode" (readFlag "strict_mode") false).bind fun strict =>
        (EngineConfig.withNumbers
          { standard with
            delimiters, escape, stringParams, strict
            partialsDirectory := (Value.valueAt? entries "partials_dir").bind (readDirectory base)
            partialSuffix :=
              ((Value.valueAt? entries "partial_suffix").map Value.plainText).getD
                standard.partialSuffix }
          ((Value.valueAt? entries "max_depth").getD (.int standard.maxDepth))
          ((Value.valueAt? entries "cache_size").getD (.int standard.cacheSize))).bind fun c =>
        if (Delimiters.ofPair? c.delimiters.1 c.delimiters.2).isNone then
          .error (.badDelimiters c.delimiters.1 c.delimiters.2)
        else .ok c := by
  rw [ofEntries]
  cases unknownSettings? entries with
  | some e => rfl
  | none =>
    simp only [← given_flag]
    cases hescape : Value.valueAt? entries "escape" with
    | none =>
      simp only [given, hescape]
      cases Value.valueAt? entries "delimiters" <;> rfl
    | some v =>
      -- an unknown way of escaping ends the reading before the rest
      simp only [given, hescape, readEscape]
      by_cases hmode : (EscapeMode.ofName? v.plainText).isSome = true
      · simp only [if_pos hmode]
        cases Value.valueAt? entries "delimiters" <;> rfl
      · simp only [if_neg hmode]
        cases Value.valueAt? entries "delimiters" <;> rfl

/-- Every failure to read something is reported in the words of a configuration. -/
def OnlyReports (r : Except ConfigError α) : Prop :=
  ∀ e, r = .error e → e.isReport = true

theorem OnlyReports.bind {r : Except ConfigError α} {f : α → Except ConfigError β}
    (hr : OnlyReports r) (hf : ∀ a, OnlyReports (f a)) : OnlyReports (r.bind f) := by
  intro e he
  rcases Except.bind_eq_error.1 he with he | ⟨a, -, he⟩
  · exact hr e he
  · exact hf a e he

theorem onlyReports_given {name : Text} {read : Value → Except ConfigError α} (standard : α)
    (h : ∀ v, OnlyReports (read v)) : OnlyReports (given entries name read standard) := by
  rw [given]
  cases Value.valueAt? entries name with
  | none => exact fun e he => nomatch he
  | some v => exact h v

theorem onlyReports_readDelimiters (v : Value) : OnlyReports (readDelimiters v) := by
  intro e he
  rw [readDelimiters] at he
  split at he
  · exact nomatch he
  · cases he
    rfl

theorem onlyReports_readEscape (v : Value) : OnlyReports (readEscape v) := by
  intro e he
  rw [readEscape] at he
  split at he
  · exact nomatch he
  · cases he
    rfl

theorem onlyReports_readFlag (name : Text) (v : Value) : OnlyReports (readFlag name v) := by
  intro e he
  unfold readFlag at he
  split at he
  · exact nomatch he
  · cases he
    rfl

theorem onlyReports_readInteger (name : Text) (minimum : Nat) (v : Value) :
    OnlyReports (readInteger name minimum v) := by
  intro e he
  unfold readInteger at he
  split at he
  · split at he
    · exact nomatch he
    · cases he
      rfl
  · cases he
    rfl

theorem onlyReports_withNumbers (c : EngineConfig) (maxDepth cacheSize : Value) :
    OnlyReports (c.withNumbers maxDepth cacheSize) := by
  refine OnlyReports.bind (onlyReports_readInteger _ _ _) fun depth => ?_
  split
  · exact OnlyReports.bind (onlyReports_readInteger _ _ _) fun size e he => nomatch he
  · intro e he
    cases he
    rfl

/-- **A refusal is about the configuration** exactly if the keys of the mapping are texts. -/
theorem isReport_iff_of_ofEntries {e : ConfigError} (h : ofEntries entries base = .error e) :
    e.isReport = true ↔ ∀ entry ∈ entries, entry.1.asText?.isSome := by
  rw [ofEntries_eq] at h
  rcases unknownSettings?_spec entries with ⟨hnone, hknown⟩ | ⟨e', hsome, -, hreport⟩
  · rw [hnone] at h
    have htexts : ∀ entry ∈ entries, entry.1.asText?.isSome := fun entry hentry =>
      have ⟨name, _, hname⟩ := unknownKeys_eq_nil_iff.1 hknown entry hentry
      Option.isSome_iff_exists.2 ⟨name, hname⟩
    refine ⟨fun _ => htexts, fun _ => ?_⟩
    refine OnlyReports.bind (onlyReports_given _ onlyReports_readDelimiters) (fun _ => ?_) e h
    refine OnlyReports.bind (onlyReports_given _ onlyReports_readEscape) fun _ => ?_
    refine OnlyReports.bind (onlyReports_given _ (onlyReports_readFlag _)) fun _ => ?_
    refine OnlyReports.bind (onlyReports_given _ (onlyReports_readFlag _)) fun _ => ?_
    refine OnlyReports.bind (onlyReports_withNumbers _ _ _) fun c => ?_
    intro e he
    split at he
    · cases he
      rfl
    · exact nomatch he
  · rw [hsome] at h
    obtain rfl := Except.error.inj h
    rw [hreport]
    constructor
    · intro hunknown entry hentry
      by_cases hkey : entry.1 ∈ unknownKeys entries
      · exact hunknown _ hkey
      · have hsetting : entry.1.asText?.any settings.contains = true := by
          simpa using fun hno => hkey (List.mem_filter.2 ⟨List.mem_map_of_mem hentry, hno⟩)
        obtain ⟨name, hname, -⟩ := Option.any_eq_true _ _ |>.1 hsetting
        exact Option.isSome_iff_exists.2 ⟨name, hname⟩
    · intro htexts key hkey
      obtain ⟨entry, hentry, rfl⟩ := List.mem_map.1 (List.mem_filter.1 hkey).1
      exact htexts entry hentry

/-! ## What a mapping stands for -/

/-- What a mapping says about a setting: it gives a value that stands for `a`, or it gives none and
`a` is the standard. -/
def Gives (entries : List (Value × Value)) (name : Text) (StandsFor : Value → α → Prop)
    (standard a : α) : Prop :=
  match Value.valueAt? entries name with
  | some v => StandsFor v a
  | none => a = standard

/-- A mapping stands for a configuration. -/
structure ReadsAs (entries : List (Value × Value)) (base : Option FilePath) (c : EngineConfig) :
    Prop where
  /-- Every key is the name of a setting. -/
  isSetting : ∀ entry ∈ entries, ∃ name ∈ settings, entry.1.asText? = some name
  /-- The delimiters are a pair, or a text of two words. -/
  delimiters : Gives entries "delimiters" (fun v pair => readDelimiters v = .ok pair)
    standard.delimiters c.delimiters
  /-- The opening delimiter can be scanned for. -/
  isDelimiter_opening : isDelimiter c.delimiters.1 = true
  /-- The closing delimiter can be scanned for. -/
  isDelimiter_closing : isDelimiter c.delimiters.2 = true
  /-- The way of escaping is given by its name. -/
  escape : Gives entries "escape" (fun v name => v.plainText = name) standard.escape c.escape
  /-- There is such a way of escaping. -/
  isMode : ∃ mode : EscapeMode, mode.name = c.escape
  /-- A flag is a truth value. -/
  stringParams : Gives entries "string_params" (fun v b => v = .bool b) false c.stringParams
  /-- A flag is a truth value. -/
  strict : Gives entries "strict_mode" (fun v b => v = .bool b) false c.strict
  /-- The nesting depth is an integer; its bounds hold of every configuration. -/
  maxDepth : Gives entries "max_depth" (fun v (n : Nat) => v = .int n) standard.maxDepth c.maxDepth
  /-- The size of the cache is an integer that is not negative. -/
  cacheSize : Gives entries "cache_size" (fun v (n : Nat) => v = .int n) standard.cacheSize
    c.cacheSize
  /-- A directory may be given, as seen from the directory `base`. -/
  partialsDirectory :
    c.partialsDirectory = (Value.valueAt? entries "partials_dir").bind (readDirectory base)
  /-- A suffix is what its value is as a text. -/
  partialSuffix : Gives entries "partial_suffix" (fun v suffix => v.plainText = suffix)
    standard.partialSuffix c.partialSuffix

theorem given_eq_ok_iff {name : Text} {read : Value → Except ConfigError α}
    {StandsFor : Value → α → Prop} {standard a : α}
    (h : ∀ v, read v = .ok a ↔ StandsFor v a) :
    given entries name read standard = .ok a ↔ Gives entries name StandsFor standard a := by
  rw [given, Gives]
  cases Value.valueAt? entries name with
  | none => exact ⟨fun hok => (Except.ok.inj hok).symm, fun ha => congrArg _ ha.symm⟩
  | some v => exact h v

theorem readFlag_eq_ok_iff {name : Text} {v : Value} {b : Bool} :
    readFlag name v = .ok b ↔ v = .bool b := by
  constructor
  · intro h
    unfold readFlag at h
    split at h
    · rw [Except.ok.inj h]
    · exact nomatch h
  · rintro rfl
    rfl

theorem readEscape_eq_ok_iff {v : Value} {name : Text} :
    readEscape v = .ok name ↔ v.plainText = name ∧ ∃ mode : EscapeMode, mode.name = name := by
  have hmode : (EscapeMode.ofName? v.plainText).isSome = true ↔
      ∃ mode : EscapeMode, mode.name = v.plainText := by
    rw [EscapeMode.ofName?, List.find?_isSome]
    constructor
    · rintro ⟨mode, -, hname⟩
      exact ⟨mode, of_decide_eq_true hname⟩
    · rintro ⟨mode, hname⟩
      exact ⟨mode, by cases mode <;> simp, decide_eq_true hname⟩
  rw [readEscape]
  split
  · next h =>
    rw [Except.ok.injEq]
    exact ⟨fun hname => ⟨hname, hname ▸ hmode.1 h⟩, fun hname => hname.1⟩
  · next h =>
    refine ⟨nofun, fun ⟨hname, hexists⟩ => absurd (hmode.2 (hname ▸ hexists)) h⟩

theorem readInteger_eq_ok_iff {name : Text} {minimum : Nat} {v : Value}
    {n : { n : Nat // minimum ≤ n }} : readInteger name minimum v = .ok n ↔ v = .int n.1 := by
  constructor
  · intro h
    unfold readInteger at h
    split at h
    · split at h
      · obtain rfl := Except.ok.inj h
        rw [Int.toNat_of_nonneg (by omega)]
      · exact nomatch h
    · exact nomatch h
  · rintro rfl
    have hle : (minimum : Int) ≤ (n.1 : Int) := Int.ofNat_le.2 n.2
    simp only [readInteger, dif_pos hle]
    rfl

/-- Numbers that are given are those of the configuration, which keeps everything else. -/
theorem withNumbers_eq_ok_iff {c c' : EngineConfig} {maxDepth cacheSize : Value} :
    c.withNumbers maxDepth cacheSize = .ok c' ↔
      maxDepth = .int c'.maxDepth ∧ cacheSize = .int c'.cacheSize ∧
        c' = { c with
          maxDepth := c'.maxDepth, cacheSize := c'.cacheSize
          one_le_maxDepth := c'.one_le_maxDepth, maxDepth_le := c'.maxDepth_le } := by
  show (readInteger _ _ _).bind _ = _ ↔ _
  rw [Except.bind_eq_ok]
  constructor
  · rintro ⟨depth, hdepth, h⟩
    split at h
    · obtain ⟨size, hsize, h⟩ := Except.bind_eq_ok.1 h
      obtain rfl := Except.ok.inj h
      exact ⟨readInteger_eq_ok_iff.1 hdepth, readInteger_eq_ok_iff.1 hsize, rfl⟩
    · exact nomatch h
  · rintro ⟨rfl, rfl, hc⟩
    refine ⟨⟨c'.maxDepth, c'.one_le_maxDepth⟩, readInteger_eq_ok_iff.2 rfl, ?_⟩
    rw [dif_pos c'.maxDepth_le]
    refine Except.bind_eq_ok.2 ⟨⟨c'.cacheSize, Nat.zero_le _⟩, readInteger_eq_ok_iff.2 rfl, ?_⟩
    exact congrArg _ hc.symm

theorem isNone_ofPair?_iff {opening closing : Text} :
    (Delimiters.ofPair? opening closing).isNone = false ↔
      isDelimiter opening = true ∧ isDelimiter closing = true := by
  rw [Delimiters.ofPair?]
  split
  · next h => exact ⟨fun _ => h, fun _ => rfl⟩
  · next h => exact ⟨fun hsome => absurd hsome (by simp), fun hpair => absurd hpair h⟩

theorem getD_eq_int_iff {name : Text} {standard n : Nat} :
    (Value.valueAt? entries name).getD (.int standard) = .int n ↔
      Gives entries name (fun v (n : Nat) => v = .int n) standard n := by
  rw [Gives]
  cases Value.valueAt? entries name with
  | none =>
    rw [Option.getD_none, Value.int.injEq, Int.natCast_inj]
    exact eq_comm
  | some v => rfl

theorem gives_suffix_iff {name standard suffix : Text} :
    Gives entries name (fun v suffix => v.plainText = suffix) standard suffix ↔
      ((Value.valueAt? entries name).map Value.plainText).getD standard = suffix := by
  rw [Gives]
  cases Value.valueAt? entries name with
  | none => exact eq_comm
  | some v => rfl

/-- What holds of every value that is given and of the standard holds of what is said. -/
theorem gives_and_iff {name : Text} {StandsFor : Value → α → Prop} {standard a : α}
    (P : α → Prop) (h : P standard) :
    Gives entries name (fun v a => StandsFor v a ∧ P a) standard a ↔
      Gives entries name StandsFor standard a ∧ P a := by
  rw [Gives, Gives]
  cases Value.valueAt? entries name with
  | none => exact ⟨fun ha => ⟨ha, ha ▸ h⟩, fun ha => ha.1⟩
  | some v => rfl

theorem given_delimiters_eq_ok_iff {pair : Text × Text} :
    given entries "delimiters" readDelimiters standard.delimiters = .ok pair ↔
      Gives entries "delimiters" (fun v pair => readDelimiters v = .ok pair)
        standard.delimiters pair :=
  given_eq_ok_iff fun _ => Iff.rfl

theorem given_escape_eq_ok_iff {name : Text} :
    given entries "escape" readEscape standard.escape = .ok name ↔
      Gives entries "escape" (fun v name => v.plainText = name) standard.escape name ∧
        ∃ mode : EscapeMode, mode.name = name :=
  (given_eq_ok_iff fun _ => readEscape_eq_ok_iff).trans
    (gives_and_iff (fun name => ∃ mode : EscapeMode, mode.name = name) ⟨.html, rfl⟩)

theorem given_flag_eq_ok_iff {name : Text} {b : Bool} :
    given entries name (readFlag name) false = .ok b ↔
      Gives entries name (fun v b => v = .bool b) false b :=
  given_eq_ok_iff fun _ => readFlag_eq_ok_iff

/-- **A mapping is read as the configuration that it stands for**, and is refused if it stands for
none. -/
theorem ofEntries_eq_ok_iff {c : EngineConfig} :
    ofEntries entries base = .ok c ↔ ReadsAs entries base c := by
  rw [ofEntries_eq]
  rcases unknownSettings?_spec entries with ⟨hnone, hknown⟩ | ⟨e, hsome, hunknown, -⟩
  · rw [hnone]
    constructor
    · intro h
      obtain ⟨delimiters, hdelimiters, h⟩ := Except.bind_eq_ok.1 h
      obtain ⟨escape, hescape, h⟩ := Except.bind_eq_ok.1 h
      obtain ⟨stringParams, hstringParams, h⟩ := Except.bind_eq_ok.1 h
      obtain ⟨strict, hstrict, h⟩ := Except.bind_eq_ok.1 h
      obtain ⟨c', hnumbers, h⟩ := Except.bind_eq_ok.1 h
      split at h
      · exact nomatch h
      · next hpair =>
        obtain rfl := Except.ok.inj h
        obtain ⟨hmaxDepth, hcacheSize, hc⟩ := withNumbers_eq_ok_iff.1 hnumbers
        obtain ⟨hopening, hclosing⟩ := isNone_ofPair?_iff.1 (Bool.eq_false_iff.2 hpair)
        obtain ⟨hname, hmode⟩ := given_escape_eq_ok_iff.1 hescape
        obtain rfl : c'.delimiters = delimiters := congrArg EngineConfig.delimiters hc
        obtain rfl : c'.escape = escape := congrArg EngineConfig.escape hc
        obtain rfl : c'.stringParams = stringParams := congrArg EngineConfig.stringParams hc
        obtain rfl : c'.strict = strict := congrArg EngineConfig.strict hc
        exact
          { isSetting := unknownKeys_eq_nil_iff.1 hknown
            delimiters := given_delimiters_eq_ok_iff.1 hdelimiters
            isDelimiter_opening := hopening
            isDelimiter_closing := hclosing
            escape := hname
            isMode := hmode
            stringParams := given_flag_eq_ok_iff.1 hstringParams
            strict := given_flag_eq_ok_iff.1 hstrict
            maxDepth := getD_eq_int_iff.1 hmaxDepth
            cacheSize := getD_eq_int_iff.1 hcacheSize
            partialsDirectory := congrArg EngineConfig.partialsDirectory hc
            partialSuffix := gives_suffix_iff.2 (congrArg EngineConfig.partialSuffix hc).symm }
    · intro h
      refine Except.bind_eq_ok.2 ⟨_, given_delimiters_eq_ok_iff.2 h.delimiters, ?_⟩
      refine Except.bind_eq_ok.2 ⟨_, given_escape_eq_ok_iff.2 ⟨h.escape, h.isMode⟩, ?_⟩
      refine Except.bind_eq_ok.2 ⟨_, given_flag_eq_ok_iff.2 h.stringParams, ?_⟩
      refine Except.bind_eq_ok.2 ⟨_, given_flag_eq_ok_iff.2 h.strict, ?_⟩
      refine Except.bind_eq_ok.2 ⟨c, withNumbers_eq_ok_iff.2 ⟨getD_eq_int_iff.2 h.maxDepth,
        getD_eq_int_iff.2 h.cacheSize, ?_⟩, ?_⟩
      · rw [gives_suffix_iff.1 h.partialSuffix, ← h.partialsDirectory]
      · rw [isNone_ofPair?_iff.2 ⟨h.isDelimiter_opening, h.isDelimiter_closing⟩]
        rfl
  · rw [hsome]
    exact ⟨nofun, fun h => absurd (unknownKeys_eq_nil_iff.2 h.isSetting) hunknown⟩

/-! ## Working with a configuration -/

/-- A configuration can be worked with as it is. -/
structure IsUsable (c : EngineConfig) : Prop where
  /-- Neither delimiter is empty. -/
  delimiters_ne_nil : c.delimiters.1 ≠ [] ∧ c.delimiters.2 ≠ []
  /-- Neither delimiter has a blank or an equals sign. -/
  delimiters_free : ∀ ch, ch ∈ c.delimiters.1 ∨ ch ∈ c.delimiters.2 →
    isBlank ch = false ∧ ch ≠ '='
  /-- Output is escaped in one of two ways. -/
  escape : c.escape = "html".toList ∨ c.escape = "none".toList
  /-- The nesting depth is within its bounds. -/
  maxDepth : 1 ≤ c.maxDepth ∧ c.maxDepth ≤ 83
  /-- There are options for what is compiled, with the same settings. -/
  compileOptions : ∃ options, c.compileOptions = .ok options ∧
    (options.delimiters.opening, options.delimiters.closing) = c.delimiters ∧
      options.stringParams = c.stringParams ∧ options.strict = c.strict
  /-- An engine can be made, unless partials are looked for in a directory that cannot be one. -/
  make : ∀ loader escape tree, Engine.make c loader escape tree =
    if loader.isNone && c.partialsDirectory.any FilePath.hasNull then .error .nullCharacter
    else .ok (Engine.create c loader escape tree)

theorem isDelimiter_iff {t : Text} :
    isDelimiter t = true ↔ t ≠ [] ∧ ∀ ch ∈ t, isBlank ch = false ∧ ch ≠ '=' := by
  simp [isDelimiter, isDelimiterChar]

theorem isSome_ofName? (mode : EscapeMode) : (EscapeMode.ofName? mode.name).isSome = true := by
  cases mode <;> decide

theorem ReadsAs.isUsable {c : EngineConfig} (h : ReadsAs entries base c) : c.IsUsable := by
  obtain ⟨hopening, hopeningFree⟩ := isDelimiter_iff.1 h.isDelimiter_opening
  obtain ⟨hclosing, hclosingFree⟩ := isDelimiter_iff.1 h.isDelimiter_closing
  obtain ⟨mode, hmode⟩ := h.isMode
  refine ⟨⟨hopening, hclosing⟩, fun ch hch => ?_, ?_, ⟨c.one_le_maxDepth, c.maxDepth_le⟩, ?_,
    fun loader escape tree => ?_⟩
  · exact hch.elim (hopeningFree ch) (hclosingFree ch)
  · cases mode with
    | html => exact .inl hmode.symm
    | plain => exact .inr hmode.symm
  · have hpair : Delimiters.ofPair? c.delimiters.1 c.delimiters.2 =
        some ⟨_, _, h.isDelimiter_opening, h.isDelimiter_closing⟩ :=
      Delimiters.ofPair?_eq_some_iff.2 ⟨rfl, rfl⟩
    rw [EngineConfig.compileOptions, hpair]
    exact ⟨_, rfl, rfl, rfl, rfl⟩
  · have hname : (EscapeMode.ofName? c.escape).isNone = false := by
      rw [← hmode, ← Option.not_isSome, isSome_ofName?]
      rfl
    rw [Engine.make, hname, Bool.and_false, if_neg Bool.false_ne_true]

/-- **What is read can be worked with, and what is not read is reported.**  Whatever the keys and
values of a mapping are:

* it is read as the configuration that it stands for, if it stands for one;
* such a configuration has settings that are valid, options for what is compiled, and an engine, if
  the directory of its partials can be one or a loader is given;
* a mapping that is refused is told why in the words of a configuration, if and only if all of its
  keys are texts.

Values are taken to be of any size.  An integer of more than 4300 digits that is refused is not
reported by an interpreter that does not write it out, nor is a value that is nested too deeply to
be shown. -/
theorem ofEntries_usable (entries : List (Value × Value)) (base : Option FilePath) :
    (∀ c, ofEntries entries base = .ok c ↔ ReadsAs entries base c) ∧
    (∀ c, ofEntries entries base = .ok c → c.IsUsable) ∧
    ∀ e, ofEntries entries base = .error e →
      (e.isReport = true ↔ ∀ entry ∈ entries, entry.1.asText?.isSome) :=
  ⟨fun _ => ofEntries_eq_ok_iff, fun _ h => (ofEntries_eq_ok_iff.1 h).isUsable,
    fun _ h => isReport_iff_of_ofEntries h⟩

/-- A mapping with three settings stands for a configuration; with a depth in words it is refused
with a report. -/
theorem ofEntries_usable_settings :
    let entries (depth : Value) : List (Value × Value) :=
      [(.text "max_depth".toList, depth), (.text "delimiters".toList, .text "<% %>".toList),
        (.text "partials_dir".toList, .text ['p'])]
    (∃ c, ofEntries (entries (.int 3)) none = .ok c ∧ c.maxDepth = 3 ∧ c.IsUsable) ∧
      ∃ e, ofEntries (entries (.text "deep".toList)) none = .error e ∧ e.isReport = true := by
  intro entries
  have hread : ∃ c, ofEntries (entries (.int 3)) none = .ok c ∧ c.maxDepth = 3 := ⟨_, rfl, rfl⟩
  have hrefused : ∃ e, ofEntries (entries (.text "deep".toList)) none = .error e := ⟨_, rfl⟩
  obtain ⟨c, hc, hdepth⟩ := hread
  obtain ⟨e, he⟩ := hrefused
  obtain ⟨-, husable, -⟩ := ofEntries_usable (entries (.int 3)) none
  obtain ⟨-, -, hreport⟩ := ofEntries_usable (entries (.text "deep".toList)) none
  exact ⟨⟨c, hc, hdepth, husable c hc⟩, e, he, (hreport e he).2 (by decide)⟩

/-- A key that is no text is refused, but not in the words of a configuration.  And a directory of
partials is taken for one although no engine can be made with it. -/
theorem ofEntries_not_usable :
    ofEntries [(.int 1, .int 2)] none = .error (.settingNotText "int") ∧
      (ConfigError.settingNotText "int").isReport = false ∧
      ∃ c, ofEntries [(.text "partials_dir".toList, .text ['\x00'])] none = .ok c ∧
        ∀ tree, Engine.make c none none tree = .error .nullCharacter :=
  ⟨rfl, rfl, _, rfl, fun _ => rfl⟩

end EngineConfig

end Stencil
