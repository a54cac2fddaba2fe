-- The scope of the filter of a program. The level is meant for the program, for
-- the parts of this library and for the modules of both; everything else may warn
-- at most. The filter goes by how a target starts, so it opens as well to a target
-- whose name only goes on from one of these.
import GuardedCall.Log.Filter

namespace GuardedCall

theorem LogLevel.rank_quieter (a b : LogLevel) : (a.quieter b).rank = min a.rank b.rank := by
  unfold quieter
  split <;> omega

/-! ## Filters -/

theorem Directive.covers_iff {d : Directive} {target : String} :
    d.covers target = true ↔ ∃ rest, target = d.start ++ rest := by
  unfold covers
  rw [List.isPrefixOf_iff_prefix]
  constructor
  · rintro ⟨cs, hcs⟩
    refine ⟨String.ofList cs, String.toList_inj.mp ?_⟩
    rw [String.toList_append, String.toList_ofList, hcs]
  · rintro ⟨rest, rfl⟩
    exact ⟨rest.toList, String.toList_append.symm⟩

namespace LogFilter

variable {target : String} {directives : List Directive}

theorem longest_eq_none_iff :
    longest target directives = none ↔ ∀ d ∈ directives, d.covers target = false := by
  induction directives with
  | nil => simp [longest]
  | cons d rest ih =>
    unfold longest
    rw [List.forall_mem_cons, ← ih]
    cases h : longest target rest with
    | none => by_cases hd : d.covers target <;> simp [hd]
    | some e =>
      simp only [reduceCtorEq, and_false, iff_false]
      split <;> simp

/-- A directive that covers a target, and of those that do none is longer. -/
structure Decides (target : String) (directives : List Directive) (d : Directive) : Prop where
  mem : d ∈ directives
  covers : d.covers target = true
  longest : ∀ e ∈ directives, e.covers target = true → e.start.length ≤ d.start.length

theorem Decides.of_head {d : Directive} (hd : d.covers target = true)
    (h : ∀ e ∈ directives, e.covers target = true → e.start.length ≤ d.start.length) :
    Decides target (d :: directives) d :=
  ⟨List.mem_cons_self, hd, List.forall_mem_cons.mpr ⟨fun _ => Nat.le_refl _, h⟩⟩

theorem Decides.of_tail {d e : Directive} (h : Decides target directives e)
    (hd : d.covers target = true → d.start.length ≤ e.start.length) :
    Decides target (d :: directives) e :=
  ⟨List.mem_cons_of_mem _ h.mem, h.covers, List.forall_mem_cons.mpr ⟨hd, h.longest⟩⟩

theorem decides_of_longest {d : Directive} (h : longest target directives = some d) :
    Decides target directives d := by
  induction directives generalizing d with
  | nil => simp [LogFilter.longest] at h
  | cons c rest ih =>
    unfold LogFilter.longest at h
    cases hrest : LogFilter.longest target rest with
    | none =>
      simp only [hrest] at h
      split at h
      · rename_i hc
        obtain rfl := Option.some.inj h
        exact .of_head hc fun e he => by simp [longest_eq_none_iff.mp hrest e he]
      · cases h
    | some best =>
      have hbest := ih hrest
      simp only [hrest] at h
      split at h
      · rename_i hc
        simp only [Bool.and_eq_true, decide_eq_true_eq] at hc
        obtain rfl := Option.some.inj h
        refine .of_head hc.1 fun e he hcovers => ?_
        exact Nat.le_trans (hbest.longest e he hcovers) (Nat.le_of_lt hc.2)
      · rename_i hc
        obtain rfl := Option.some.inj h
        refine hbest.of_tail fun hcovers => ?_
        simpa [hcovers] using hc

/-- A directive is put beside those with another text. -/
theorem mem_withTarget_iff {f : LogFilter} {start : String} {level : LogLevel} {d : Directive} :
    d ∈ (f.withTarget start level).directives ↔
      d = ⟨start, level⟩ ∨ d ∈ f.directives ∧ d.start ≠ start := by
  simp [withTarget]

/-- Directives of one level, one after the other: each name has its directive, and of the earlier
ones those with another text stay. -/
theorem mem_foldl_withTarget_iff {names : List String} {f : LogFilter} {level : LogLevel}
    {d : Directive} :
    d ∈ (names.foldl (fun f name => f.withTarget name level) f).directives ↔
      d.level = level ∧ d.start ∈ names ∨ d ∈ f.directives ∧ d.start ∉ names := by
  induction names generalizing f with
  | nil => simp
  | cons name rest ih =>
    rw [List.foldl_cons, ih, mem_withTarget_iff]
    obtain ⟨start, l⟩ := d
    by_cases hname : start = name
    · subst hname
      by_cases hrest : start ∈ rest <;> simp [hrest]
    · simp [hname]

theorem fallback_foldl_withTarget (names : List String) (f : LogFilter) (level : LogLevel) :
    (names.foldl (fun f name => f.withTarget name level) f).fallback = f.fallback := by
  induction names generalizing f with
  | nil => rfl
  | cons name rest ih => exact ih (f.withTarget name level)

end LogFilter

namespace LogScope

/-! ## What the level is meant for -/

/-- A module of a target. -/
def IsBelow (name target : String) : Prop := ∃ rest, rest ≠ "" ∧ target = name ++ "::" ++ rest

/-- The program itself, a part of this library, or a module of one of these. -/
def InScope (app target : String) : Prop :=
  ∃ name ∈ app :: frameworkTargets, target = name ∨ IsBelow name target

/-- The target starts with the name of the program or of a part of this library. -/
def Begins (app target : String) : Prop :=
  ∃ name ∈ app :: frameworkTargets, ∃ rest, target = name ++ rest

/-- An event up to the level where that applies, and elsewhere up to a warning at most. -/
def UpTo (level : LogLevel) (applies : Prop) (event : LogLevel) : Prop :=
  (applies → event.rank ≤ level.rank) ∧ (¬ applies → event.rank ≤ (level.quieter .warn).rank)

theorem begins_of_inScope {app target : String} (h : InScope app target) : Begins app target := by
  obtain ⟨name, hname, rfl | ⟨rest, -, rfl⟩⟩ := h
  · exact ⟨target, hname, "", by simp⟩
  · exact ⟨name, hname, "::" ++ rest, by rw [String.append_assoc]⟩

theorem upTo_iff {level event : LogLevel} {applies : Prop} :
    UpTo level applies event ↔
      event.rank ≤ level.rank ∧ (applies ∨ event.rank ≤ LogLevel.warn.rank) := by
  unfold UpTo
  rw [LogLevel.rank_quieter]
  rw [Nat.le_min]
  by_cases h : applies
  · simp [h]
  · simp [h]

/-! ## The filter of a program -/

section Targets

variable {level : LogLevel} {app target : String}

theorem mem_logTargets_iff {d : Directive} :
    d ∈ (logTargets level app).directives ↔
      d.level = level ∧ d.start ∈ app :: frameworkTargets := by
  unfold logTargets
  rw [LogFilter.mem_foldl_withTarget_iff, List.mem_append, List.mem_singleton, List.mem_cons,
    or_comm]
  simp [or_comm]

/-- Some directive covers exactly the targets that start with one of the names. -/
theorem begins_iff :
    Begins app target ↔ ∃ d ∈ (logTargets level app).directives, d.covers target = true := by
  simp only [Directive.covers_iff]
  constructor
  · rintro ⟨name, hname, hrest⟩
    exact ⟨⟨name, level⟩, mem_logTargets_iff.mpr ⟨rfl, hname⟩, hrest⟩
  · rintro ⟨d, hd, hrest⟩
    exact ⟨d.start, (mem_logTargets_iff.mp hd).2, hrest⟩

theorem levelFor_of_begins (h : Begins app target) :
    (logTargets level app).levelFor target = level := by
  obtain ⟨d, hd, hcovers⟩ := begins_iff.mp h
  unfold LogFilter.levelFor
  cases hlongest : LogFilter.longest target (logTargets level app).directives with
  | none =>
    have hnone := LogFilter.longest_eq_none_iff.mp hlongest d hd
    rw [hcovers] at hnone
    cases hnone
  | some e => exact (mem_logTargets_iff.mp (LogFilter.decides_of_longest hlongest).mem).1

theorem levelFor_of_not_begins (h : ¬ Begins app target) :
    (logTargets level app).levelFor target = level.quieter .warn := by
  have hnone : LogFilter.longest target (logTargets level app).directives = none := by
    rw [LogFilter.longest_eq_none_iff]
    intro d hd
    rw [Bool.eq_false_iff]
    exact fun hcovers => h (begins_iff.mpr ⟨d, hd, hcovers⟩)
  unfold LogFilter.levelFor
  rw [hnone]
  exact LogFilter.fallback_foldl_withTarget _ _ _

theorem enables_iff {event : LogLevel} :
    (logTargets level app).enables target event = true ↔ UpTo level (Begins app target) event := by
  unfold LogFilter.enables UpTo
  rw [decide_eq_true_iff]
  by_cases h : Begins app target
  · simp [h, levelFor_of_begins h]
  · simp [h, levelFor_of_not_begins h]

end Targets

/-- The filter goes by beginnings: the level applies to every target that starts with the name of
the program or of a part of this library, and all others may warn at most. So it loses nothing that
it is meant to keep. It keeps exactly that if the level is no more verbose than a warning, or else
if the target does not start with one of the names without being in scope. -/
theorem level_applies_in_scope_iff (level : LogLevel) (app target : String) :
    (∀ event, (logTargets level app).enables target event = true ↔
      UpTo level (Begins app target) event) ∧
    (∀ event, UpTo level (InScope app target) event →
      (logTargets level app).enables target event = true) ∧
    ((∀ event, (logTargets level app).enables target event = true ↔
      UpTo level (InScope app target) event) ↔
        level.rank ≤ LogLevel.warn.rank ∨ (Begins app target → InScope app target)) := by
  refine ⟨fun _ => enables_iff, fun event h => ?_, fun hall => ?_, fun h event => ?_⟩
  · rw [upTo_iff] at h
    exact enables_iff.mpr (upTo_iff.mpr (h.imp_right (Or.imp_left begins_of_inScope)))
  · -- The level itself is an event that only the scope lets through.
    by_cases hlevel : level.rank ≤ LogLevel.warn.rank
    · exact .inl hlevel
    · refine .inr fun hbegins => ?_
      have hkept := enables_iff.mpr (upTo_iff.mpr ⟨Nat.le_refl level.rank, .inl hbegins⟩)
      exact (upTo_iff.mp ((hall level).mp hkept)).2.resolve_right hlevel
  · rw [enables_iff, upTo_iff, upTo_iff]
    refine and_congr_right fun hevent => ?_
    rcases h with hlevel | hscope
    · have hwarn := Nat.le_trans hevent hlevel
      simp [hwarn]
    · have hiff : Begins app target ↔ InScope app target := ⟨hscope, begins_of_inScope⟩
      rw [hiff]

theorem IsBelow.begins {name target : String} (h : IsBelow name target) :
    (name ++ "::").toList <+: target.toList := by
  obtain ⟨rest, -, rfl⟩ := h
  exact ⟨rest.toList, String.toList_append.symm⟩

/-- The schema engine is no part of a program called `json`, and yet it may log as that program
may. -/
theorem json_opens_schema_engine :
    (logTargets .debug "json").enables "jsonschema" .debug = true ∧
      ¬ InScope "json" "jsonschema" ∧
      ¬ UpTo .debug (InScope "json" "jsonschema") .debug := by
  have houtside : ¬ InScope "json" "jsonschema" := by
    rintro ⟨name, hname, h⟩
    have hnames : ∀ name ∈ "json" :: frameworkTargets,
        "jsonschema" ≠ name ∧ ¬ (name ++ "::").toList <+: "jsonschema".toList := by
      decide
    obtain ⟨hne, hnot⟩ := hnames name hname
    exact h.elim hne fun hbelow => hnot hbelow.begins
  exact ⟨by decide, houtside, fun h => absurd (h.2 houtside) (by decide)⟩

end LogScope

end GuardedCall
