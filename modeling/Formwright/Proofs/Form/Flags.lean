import Formwright.Form.OfAnalysis
import Formwright.Proofs.Form.Declared
import Formwright.Proofs.Form.Flattening
import Formwright.Proofs.Text.Blanks
import Formwright.Proofs.Value.Fields
import Mathlib.Data.List.Induction

/-
  Extension properties and the flags settled among them. Properties are the fields that entries are
  collected to, keys with one text being one field (`lookup_collected`), and flags of different names
  are settled independently of each other (`lookup_settleFields`). A flag is on when its raw form, or
  without one the flag itself, says true in so many letters (`asFlag_coerce_iff`): what is kept of a
  collection, of bytes or of a date is a text that never does. `ofEntry_properties` is the contract of
  a control: its properties, its typed flags and the source agree, and settled properties are a fixed
  point.
-/

namespace Formwright.Form

open Json (entriesOf)
open Text (Blanks isBlank)
open Value (setField)

/-! ## Values that say a flag is on -/

/-- True, or the word in any case between blanks. -/
inductive SaysTrue : Value → Prop
  | yes : SaysTrue (.bool true)
  | word {before word behind : List Char} (front : Blanks before) (back : Blanks behind)
      (spelled : word.map Char.toLower = "true".toList) :
      SaysTrue (.text (String.ofList (before ++ word ++ behind)))

theorem saysTrue_bool_iff {b : Bool} : SaysTrue (.bool b) ↔ b = true := by
  constructor
  · rintro ⟨⟩
    rfl
  · rintro rfl
    exact .yes

/-- A character whose lower case is a letter of the word is not blank. -/
theorem not_isBlank_of_toLower {c d : Char} (h : c.toLower = d) (hd : d ∈ "true".toList) :
    isBlank c = false := by
  have hletters : "true".toList.all (!isBlank ·) = true := by decide
  rw [Bool.eq_false_iff]
  intro hblank
  rw [← h, Text.toLower_of_isBlank hblank] at hd
  have hc := List.all_eq_true.mp hletters c hd
  rw [hblank] at hc
  exact Bool.false_ne_true hc

theorem asFlag_text_iff {s : String} : asFlag (.text s) = true ↔ SaysTrue (.text s) := by
  have hword : asFlag (.text s) = true ↔
      (Text.stripChars s.toList).map Char.toLower = "true".toList := by
    rw [← Text.map_lowerChar_iff (by decide) (by decide)]
    show (Text.lower (Text.strip s) == "true") = true ↔ _
    rw [beq_iff_eq, Text.lower, Text.strip, String.toList_ofList, ← String.toList_inj,
      String.toList_ofList]
  rw [hword]
  constructor
  · intro h
    obtain ⟨before, behind, hbefore, hbehind, hs⟩ := Text.exists_stripChars s.toList
    have hsays := SaysTrue.word hbefore hbehind h
    rwa [← hs, String.ofList_toList] at hsays
  · intro h
    generalize hv : Value.text s = v at h
    cases h with
    | yes => cases hv
    | @word before word behind front back spelled =>
      obtain rfl := Value.text.inj hv
      have hhead : ∀ c ∈ word.head?, isBlank c = false := by
        intro c hc
        refine not_isBlank_of_toLower rfl (spelled ▸ List.mem_map_of_mem (List.mem_of_mem_head? hc))
      have hlast : ∀ c ∈ word.getLast?, isBlank c = false := by
        intro c hc
        refine not_isBlank_of_toLower rfl (spelled ▸ List.mem_map_of_mem (List.mem_of_mem_getLast? hc))
      rw [String.toList_ofList, Text.stripChars_append front back hhead hlast, spelled]

/-- A text with any other character than blanks and the letters of the word says something else. -/
theorem not_saysTrue_of_mem {s : String} {c : Char} (h : c ∈ s.toList) (hblank : isBlank c = false)
    (hc : c.toLower ∉ "true".toList) : ¬SaysTrue (.text s) := by
  intro hsays
  generalize hv : Value.text s = v at hsays
  cases hsays with
  | yes => cases hv
  | @word before word behind front back spelled =>
    obtain rfl := Value.text.inj hv
    rw [String.toList_ofList, List.mem_append, List.mem_append] at h
    rcases h with (h | h) | h
    · exact Bool.false_ne_true (hblank.symm.trans (front c h))
    · exact hc (spelled ▸ List.mem_map_of_mem h)
    · exact Bool.false_ne_true (hblank.symm.trans (back c h))

/-- What is no simple value has a text that says something else. -/
theorem not_saysTrue_display {v : Value} (h : ¬v.IsProperty) : ¬SaysTrue (.text v.display) := by
  cases v with
  | null | bool | int | float | text => simp [Value.IsProperty, Value.IsString, Value.IsBool, Value.IsInt] at h
  | bytes bs =>
    show ¬SaysTrue (.text (Text.quotedBytes bs))
    unfold Text.quotedBytes
    rcases Text.quoteFor_eq (bs.contains 39) (bs.contains 34) with hq | hq <;> rw [hq]
    · exact not_saysTrue_of_mem (c := '"') (by simp) (by decide) (by decide)
    · exact not_saysTrue_of_mem (c := '\'') (by simp) (by decide) (by decide)
  | date n d =>
    refine not_saysTrue_of_mem (c := '-') ?_ (by decide) (by decide)
    simp [Value.display, Calendar.Date.isoText]
  | moment n m =>
    refine not_saysTrue_of_mem (c := '-') ?_ (by decide) (by decide)
    simp [Value.display, Calendar.Moment.isoText, Calendar.Date.isoText]
  | list n vs =>
    refine not_saysTrue_of_mem (c := '[') ?_ (by decide) (by decide)
    simp [Value.display, Value.shown]
  | tuple n vs =>
    refine not_saysTrue_of_mem (c := '(') ?_ (by decide) (by decide)
    simp [Value.display, Value.shown]
    split <;> simp
  | set n vs =>
    show ¬SaysTrue (.text (Value.set n vs).shown)
    rw [Value.shown]
    split
    · exact not_saysTrue_of_mem (c := '(') (by decide) (by decide) (by decide)
    · exact not_saysTrue_of_mem (c := '\x7b') (by simp) (by decide) (by decide)
  | map n es =>
    refine not_saysTrue_of_mem (c := '\x7b') ?_ (by decide) (by decide)
    simp [Value.display, Value.shown]

/-- A value and what is kept of it say the same. -/
theorem asFlag_coerce_iff (v : Value) : asFlag (coerce v) = true ↔ SaysTrue v := by
  cases v with
  | null | int | float => exact ⟨fun h => absurd h Bool.false_ne_true, nofun⟩
  | bool b => exact saysTrue_bool_iff.symm
  | text s => exact asFlag_text_iff
  | bytes | date | moment | list | tuple | set | map =>
    refine asFlag_text_iff.trans ⟨fun h => absurd h (not_saysTrue_display ?_), nofun⟩
    simp [Value.IsProperty, Value.IsString, Value.IsBool, Value.IsInt]

/-! ## Entries as fields -/

/-- The value of the last entry whose key has a name for its text. -/
def lastNamed (es : List (Value × Value)) (name : String) : Option Value :=
  (es.filter (·.1.display == name)).getLast?.map (·.2)

/-- The fields that entries are collected to. -/
def collected (es : List (Value × Value)) : List (String × Value) :=
  es.foldl (fun fs e => setField fs e.1.display (coerce e.2)) []

theorem lastNamed_append_singleton (es : List (Value × Value)) (e : Value × Value) (name : String) :
    lastNamed (es ++ [e]) name = if name = e.1.display then some e.2 else lastNamed es name := by
  unfold lastNamed
  rw [List.filter_append]
  by_cases h : name = e.1.display
  · simp [h]
  · simp [h, Ne.symm h]

theorem collected_append_singleton (es : List (Value × Value)) (e : Value × Value) :
    collected (es ++ [e]) = setField (collected es) e.1.display (coerce e.2) := by
  rw [collected, List.foldl_append]
  rfl

theorem lookup_collected (es : List (Value × Value)) (name : String) :
    (collected es).lookup name = (lastNamed es name).map coerce := by
  induction es using List.reverseRecOn with
  | nil => rfl
  | append_singleton es e ih =>
    rw [collected_append_singleton, Value.lookup_setField, lastNamed_append_singleton, ih]
    split <;> rfl

/-- Each name stands where it is first met. -/
theorem map_fst_collected (es : List (Value × Value)) :
    (collected es).map (·.1) = (es.map (·.1.display)).eraseDups := by
  induction es using List.reverseRecOn with
  | nil => rfl
  | append_singleton es e ih =>
    rw [collected_append_singleton, Value.map_fst_setField, ih, List.map_append, List.map_singleton,
      eraseDups_append_singleton]

theorem isProperty_coerce (v : Value) : (coerce v).IsProperty := by
  cases v <;> simp [coerce, Value.IsProperty, Value.IsString, Value.IsBool, Value.IsInt]

theorem coerce_of_isProperty {v : Value} (h : v.IsProperty) : coerce v = v := by
  rcases h with rfl | ⟨s, rfl⟩ | ⟨b, rfl⟩ | ⟨n, rfl⟩ | ⟨x, rfl⟩ <;> rfl

/-- Fields with distinct names and simple values. -/
structure Tidy (fs : List (String × Value)) : Prop where
  names : (fs.map (·.1)).Nodup
  values : ∀ f ∈ fs, f.2.IsProperty

theorem Tidy.setField {fs : List (String × Value)} (h : Tidy fs) (name : String) {v : Value}
    (hv : v.IsProperty) : Tidy (setField fs name v) := by
  refine ⟨Value.nodup_setField h.names name v, fun f hf => ?_⟩
  rcases Value.mem_setField hf with hf | rfl
  · exact h.values f hf
  · exact hv

theorem tidy_collected (es : List (Value × Value)) : Tidy (collected es) := by
  induction es using List.reverseRecOn with
  | nil => exact ⟨List.nodup_nil, List.forall_mem_nil _⟩
  | append_singleton es e ih =>
    rw [collected_append_singleton]
    exact ih.setField _ (isProperty_coerce e.2)

/-- Tidy fields are collected as they are. -/
theorem collected_entriesOf {fs : List (String × Value)} (h : Tidy fs) :
    collected (entriesOf fs) = fs := by
  induction fs using List.reverseRecOn with
  | nil => rfl
  | append_singleton fs f ih =>
    obtain ⟨hnames, hvalues⟩ := h
    rw [List.map_append, List.map_singleton, List.nodup_append] at hnames
    obtain ⟨hfs, -, hf⟩ := hnames
    have hnew : f.1 ∉ fs.map (·.1) := fun hmem => hf f.1 hmem f.1 List.mem_cons_self rfl
    have hentries : entriesOf (fs ++ [f]) = entriesOf fs ++ [(.text f.1, f.2)] := List.map_append
    rw [hentries, collected_append_singleton, ih ⟨hfs, fun g hg => hvalues g (List.mem_append_left _ hg)⟩,
      Value.display_text, coerce_of_isProperty (hvalues f List.mem_concat_self),
      Value.setField_of_not_mem hnew]

/-! ## Flags among fields -/

/-- What decides about a flag: the raw one if there is one, else the flag itself. -/
def decider (fs : List (String × Value)) (flag : String × String) : Option Value :=
  (fs.lookup flag.1).or (fs.lookup flag.2)

/-- Fields with one flag settled. -/
def settleField (fs : List (String × Value)) (flag : String × String) : List (String × Value) :=
  match decider fs flag with
  | some v => setField fs flag.2 (.bool (asFlag v))
  | none => fs

theorem settle_entriesOf (fs : List (String × Value)) (flag : String × String) :
    settle (entriesOf fs) flag = entriesOf (settleField fs flag) := by
  unfold settle settleField decider
  rw [Value.lookup_entriesOf, Value.lookup_entriesOf]
  cases fs.lookup flag.1 with
  | some raw => exact Value.put_entriesOf fs flag.2 _
  | none =>
    cases fs.lookup flag.2 with
    | some own => exact Value.put_entriesOf fs flag.2 _
    | none => rfl

theorem mapProperties_eq (es : List (Value × Value)) :
    mapProperties es = entriesOf (flags.foldl settleField (collected es)) := by
  have hstep : ∀ fs (e : Value × Value), Value.put (entriesOf fs) (.text e.1.display) (coerce e.2) =
      entriesOf (setField fs e.1.display (coerce e.2)) := fun fs e => Value.put_entriesOf fs _ _
  have hcollect : es.foldl (fun fs e => Value.put fs (.text e.1.display) (coerce e.2)) (entriesOf []) =
      entriesOf (collected es) := List.foldl_hom entriesOf hstep
  exact (congrArg (flags.foldl settle) hcollect).trans (List.foldl_hom entriesOf settle_entriesOf)

theorem lookup_settleField (fs : List (String × Value)) (flag : String × String) (name : String) :
    (settleField fs flag).lookup name =
      if name = flag.2 then (decider fs flag).map fun v => .bool (asFlag v) else fs.lookup name := by
  unfold settleField
  cases hd : decider fs flag with
  | some v => exact Value.lookup_setField fs flag.2 _ name
  | none =>
    by_cases h : name = flag.2
    · rw [if_pos h, h]
      exact (Option.or_eq_none_iff.mp hd).2
    · rw [if_neg h]

/-- The names of flags, raw and settled. -/
def flagNames (fl : List (String × String)) : List String := fl.flatMap fun flag => [flag.1, flag.2]

theorem flagNames_cons (flag : String × String) (fl : List (String × String)) :
    flagNames (flag :: fl) = flag.1 :: flag.2 :: flagNames fl := rfl

theorem mem_flagNames {fl : List (String × String)} {flag : String × String} (h : flag ∈ fl) :
    flag.1 ∈ flagNames fl ∧ flag.2 ∈ flagNames fl :=
  ⟨List.mem_flatMap.mpr ⟨flag, h, by simp⟩, List.mem_flatMap.mpr ⟨flag, h, by simp⟩⟩

theorem decider_settleField {flag other : String × String} (hraw : other.1 ≠ flag.2)
    (hown : other.2 ≠ flag.2) (fs : List (String × Value)) :
    decider (settleField fs flag) other = decider fs other := by
  rw [decider, lookup_settleField, lookup_settleField, if_neg hraw, if_neg hown, decider]

/-- Flags with different names are settled independently, and nothing else is touched. -/
theorem lookup_settleFields {fl : List (String × String)} (hdistinct : (flagNames fl).Nodup)
    (fs : List (String × Value)) :
    (∀ name ∉ fl.map (·.2), (fl.foldl settleField fs).lookup name = fs.lookup name) ∧
      ∀ flag ∈ fl, (fl.foldl settleField fs).lookup flag.2 =
        (decider fs flag).map fun v => .bool (asFlag v) := by
  induction fl generalizing fs with
  | nil => exact ⟨fun _ _ => rfl, fun _ hmem => absurd hmem List.not_mem_nil⟩
  | cons flag fl ih =>
    rw [flagNames_cons, List.nodup_cons, List.nodup_cons] at hdistinct
    obtain ⟨-, hflag, hdistinct⟩ := hdistinct
    obtain ⟨hothers, hsettled⟩ := ih hdistinct (settleField fs flag)
    have hne : ∀ other ∈ fl, other.1 ≠ flag.2 ∧ other.2 ≠ flag.2 := fun other hmem =>
      ⟨ne_of_mem_of_not_mem (mem_flagNames hmem).1 hflag, ne_of_mem_of_not_mem (mem_flagNames hmem).2 hflag⟩
    rw [List.foldl_cons]
    refine ⟨fun name hname => ?_, fun other hother => ?_⟩
    · rw [List.map_cons, List.mem_cons, not_or] at hname
      rw [hothers name hname.2, lookup_settleField, if_neg hname.1]
    · rcases List.mem_cons.mp hother with rfl | hmem
      · have hnew : other.2 ∉ fl.map (·.2) := by
          intro hmem
          obtain ⟨g, hg, heq⟩ := List.mem_map.mp hmem
          exact (hne g hg).2 heq
        rw [hothers other.2 hnew, lookup_settleField, if_pos rfl]
      · rw [hsettled other hmem, decider_settleField (hne other hmem).1 (hne other hmem).2]

/-- The settled flag that some names bring with them: they have the raw one only. -/
def addedFlag (names : List String) (flag : String × String) : List String :=
  if flag.1 ∈ names ∧ flag.2 ∉ names then [flag.2] else []

theorem map_fst_settleField (fs : List (String × Value)) (flag : String × String) :
    (settleField fs flag).map (·.1) = fs.map (·.1) ++ addedFlag (fs.map (·.1)) flag := by
  unfold settleField addedFlag
  cases hd : decider fs flag with
  | none =>
    have hraw : ¬(fs.lookup flag.1).isSome = true := by simp [(Option.or_eq_none_iff.mp hd).1]
    rw [if_neg fun h => hraw (lookup_isSome_iff.mpr h.1), List.append_nil]
  | some v =>
    show (setField fs flag.2 (.bool (asFlag v))).map (·.1) = _
    by_cases hown : flag.2 ∈ fs.map (·.1)
    · rw [if_neg fun h => h.2 hown, List.append_nil, Value.map_fst_setField, keepFirst, if_pos]
      exact List.any_eq_true.mpr ⟨flag.2, hown, beq_self_eq_true _⟩
    · have hlookup : fs.lookup flag.2 = none := by
        rw [← Option.not_isSome_iff_eq_none, lookup_isSome_iff]
        exact hown
      have hraw : fs.lookup flag.1 = some v := by
        rw [← hd, decider, hlookup, Option.or_none]
      have hmem : flag.1 ∈ fs.map (·.1) := lookup_isSome_iff.mp (by rw [hraw]; rfl)
      rw [if_pos ⟨hmem, hown⟩, Value.setField_of_not_mem hown, List.map_append, List.map_singleton]

/-- A name that one flag brings makes no difference to flags of other names. -/
theorem addedFlag_append {flag other : String × String} (hraw : other.1 ≠ flag.2)
    (hown : other.2 ≠ flag.2) (names : List String) :
    addedFlag (names ++ addedFlag names flag) other = addedFlag names other := by
  have hmem : ∀ n ≠ flag.2, n ∈ names ++ addedFlag names flag ↔ n ∈ names := by
    intro n hn
    unfold addedFlag
    split <;> simp [hn]
  exact if_congr (and_congr (hmem _ hraw) (not_congr (hmem _ hown))) rfl rfl

theorem map_fst_settleFields {fl : List (String × String)} (hdistinct : (flagNames fl).Nodup)
    (fs : List (String × Value)) :
    (fl.foldl settleField fs).map (·.1) = fs.map (·.1) ++ fl.flatMap (addedFlag (fs.map (·.1))) := by
  induction fl generalizing fs with
  | nil => exact (List.append_nil _).symm
  | cons flag fl ih =>
    rw [flagNames_cons, List.nodup_cons, List.nodup_cons] at hdistinct
    obtain ⟨-, hflag, hdistinct⟩ := hdistinct
    have hsame : fl.flatMap (addedFlag (fs.map (·.1) ++ addedFlag (fs.map (·.1)) flag)) =
        fl.flatMap (addedFlag (fs.map (·.1))) :=
      List.flatMap_congr fun other hmem => addedFlag_append
        (ne_of_mem_of_not_mem (mem_flagNames hmem).1 hflag)
        (ne_of_mem_of_not_mem (mem_flagNames hmem).2 hflag) _
    rw [List.foldl_cons, ih hdistinct, map_fst_settleField, hsame, List.flatMap_cons, List.append_assoc]

theorem Tidy.settleField {fs : List (String × Value)} (h : Tidy fs) (flag : String × String) :
    Tidy (settleField fs flag) := by
  unfold Form.settleField
  split
  · exact h.setField _ (Or.inr (Or.inr (Or.inl ⟨_, rfl⟩)))
  · exact h

theorem Tidy.settleFields {fs : List (String × Value)} (h : Tidy fs) (fl : List (String × String)) :
    Tidy (fl.foldl Form.settleField fs) := by
  induction fl generalizing fs with
  | nil => exact h
  | cons flag fl ih => exact ih (h.settleField flag)

/-- A settled flag stays as it is when it is settled once more. -/
theorem settleField_settled {fl : List (String × String)} (hdistinct : (flagNames fl).Nodup)
    {fs : List (String × Value)} (h : Tidy fs) {flag : String × String} (hflag : flag ∈ fl)
    (hraw : flag.1 ∉ fl.map (·.2)) :
    settleField (fl.foldl settleField fs) flag = fl.foldl settleField fs := by
  obtain ⟨hothers, hsettled⟩ := lookup_settleFields hdistinct fs
  have hown := hsettled flag hflag
  have hstays : ∀ v, decider (fl.foldl settleField fs) flag = some v →
      (fl.foldl settleField fs).lookup flag.2 = some (.bool (asFlag v)) := by
    intro v hv
    rw [decider, hothers flag.1 hraw, hown] at hv
    rw [hown, decider]
    cases hlookup : fs.lookup flag.1 with
    | some raw =>
      rw [hlookup] at hv
      exact congrArg (fun w => some (Value.bool (asFlag w))) (Option.some.inj hv)
    | none =>
      -- the flag has been settled from itself, and a truth value says what it is
      rw [hlookup, Option.none_or, decider, hlookup] at hv
      obtain ⟨own, hown, rfl⟩ := Option.map_eq_some_iff.mp hv
      rw [hown]
      rfl
  unfold settleField
  split
  · rename_i v hv
    exact Value.setField_of_lookup (h.settleFields fl).names (hstays v hv)
  · rfl

theorem foldl_settleField_settled {fl : List (String × String)} {fs : List (String × Value)}
    (h : ∀ flag ∈ fl, settleField fs flag = fs) : fl.foldl settleField fs = fs := by
  induction fl with
  | nil => rfl
  | cons flag fl ih =>
    obtain ⟨hflag, hfl⟩ := List.forall_mem_cons.mp h
    rw [List.foldl_cons, hflag, ih hfl]

/-! ## What a control says about its properties -/

theorem flags_distinct : (flagNames flags).Nodup := by decide

theorem raw_not_mem : ∀ flag ∈ flags, flag.1 ∉ flags.map (·.2) := by decide

/-- The texts of the keys of entries, each where it is first met. -/
def keyTexts (es : List (Value × Value)) : List String := (es.map (·.1.display)).eraseDups

/-- What entries are mapped to. -/
structure PropertiesOf (es ps : List (Value × Value)) : Prop where
  /-- Texts, truth values, numbers and null. -/
  simple : ∀ e ∈ ps, e.2.IsProperty
  /-- The flags that come with raw ones stand behind the texts of the keys. -/
  keys : ps.map (·.1) = (keyTexts es ++ flags.flatMap (addedFlag (keyTexts es))).map .text
  /-- Everything but the settled flags is what the last entry of its name holds. -/
  others : ∀ name ∉ flags.map (·.2),
    Value.lookup ps (.text name) = (lastNamed es name).map coerce
  /-- Mapping once more changes nothing. -/
  again : mapProperties ps = ps

/-- What a control says of a flag, beside the entries and the properties they are mapped to. -/
structure FlagOf (es ps : List (Value × Value)) (flag : String × String) (v : Value) : Prop where
  isBool : v.IsBool
  entry : v = (Value.lookup ps (.text flag.2)).getD (.bool false)
  /-- The raw flag decides, or the settled one where there is no raw one. -/
  on : v = .bool true ↔
    ∃ w, (lastNamed es flag.1).or (lastNamed es flag.2) = some w ∧ SaysTrue w

theorem propertiesOf_mapProperties (es : List (Value × Value)) :
    PropertiesOf es (mapProperties es) := by
  have htidy : Tidy (flags.foldl settleField (collected es)) := (tidy_collected es).settleFields flags
  rw [mapProperties_eq]
  refine ⟨fun e he => ?_, ?_, fun name hname => ?_, ?_⟩
  · obtain ⟨f, hf, rfl⟩ := List.mem_map.mp he
    exact htidy.values f hf
  · rw [keyTexts, ← map_fst_collected, ← map_fst_settleFields flags_distinct, entriesOf, List.map_map,
      List.map_map]
    rfl
  · rw [Value.lookup_entriesOf, (lookup_settleFields flags_distinct _).1 name hname, lookup_collected]
  · rw [mapProperties_eq, collected_entriesOf htidy]
    exact congrArg entriesOf (foldl_settleField_settled fun flag hflag =>
      settleField_settled flags_distinct (tidy_collected es) hflag (raw_not_mem flag hflag))

theorem decider_collected (es : List (Value × Value)) (flag : String × String) :
    decider (collected es) flag = ((lastNamed es flag.1).or (lastNamed es flag.2)).map coerce := by
  rw [decider, lookup_collected, lookup_collected]
  cases lastNamed es flag.1 <;> rfl

theorem flagOf_flag (es : List (Value × Value)) {f : String × String} (hf : f ∈ flags) :
    FlagOf es (mapProperties es) f (.bool (flag (mapProperties es) f.2)) := by
  have hlookup : Value.lookup (mapProperties es) (.text f.2) =
      ((lastNamed es f.1).or (lastNamed es f.2)).map fun w => .bool (asFlag (coerce w)) := by
    rw [mapProperties_eq, Value.lookup_entriesOf, (lookup_settleFields flags_distinct _).2 f hf,
      decider_collected, Option.map_map]
    rfl
  refine ⟨⟨_, rfl⟩, ?_, ?_⟩
  · rw [flag, hlookup]
    cases (lastNamed es f.1).or (lastNamed es f.2) <;> rfl
  · rw [flag, hlookup]
    cases (lastNamed es f.1).or (lastNamed es f.2) with
    | none => simp
    | some w =>
      show Value.bool (asFlag (coerce w)) = .bool true ↔ _
      rw [Value.bool.injEq, asFlag_coerce_iff]
      simp

/-- A control whose flags contradict each other, and whose keys have a text in common. -/
def contradicting : Entry Source.Control where
  label := {
    type := .text "TextField"
    properties := [(.text "IsReadOnly", .bool true), (.int 1, .list 0 []), (.text "1", .null),
      (.text "ReadOnly", .text "no"), (.text "Required", .text " TRUE\n"), (.bool true, .bytes [84])] }
  parent := none
  depth := 0
  descendants := 0

example : mapProperties contradicting.label.properties =
    [(.text "IsReadOnly", .bool false), (.text "1", .null), (.text "ReadOnly", .text "no"),
      (.text "Required", .text " TRUE\n"), (.text "True", .text "b'T'"), (.text "IsRequired", .bool true)] := by
  rfl

end Formwright.Form
