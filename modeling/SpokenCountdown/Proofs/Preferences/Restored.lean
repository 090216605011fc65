import SpokenCountdown.Preferences.File
import SpokenCountdown.Proofs.Toml.Written

/-!
# Saved preferences are restored

Loading a file of saved preferences hands back the same preferences. Each record
takes what it wrote for itself, in whatever order the fields are read and whether
its numbers come back in single or in double precision; and the document of the
preferences is one that the reader of documents reads back. That the text of a
rate is read back is a hypothesis there, and the only one on texts.
-/

namespace SpokenCountdown

open Toml

-- ---------------------------------------------------------------------------
-- What fits
-- ---------------------------------------------------------------------------

def DurationInput.Fits : DurationInput → Prop
  | .number n => n < Text.word64
  | .text _ => True

structure SayItem.Fits (item : SayItem) : Prop where
  offset : item.offset < Text.word64
  rate : ∀ x ∈ item.rate, x.InFormat .single

instance : DecidablePred SayItem.Fits := fun item =>
  decidable_of_iff (item.offset < Text.word64 ∧ ∀ x ∈ item.rate, x.InFormat .single)
    ⟨fun h => ⟨h.1, h.2⟩, fun h => ⟨h.offset, h.rate⟩⟩

structure Settings.Fits (settings : Settings) : Prop where
  duration : settings.duration.Fits
  sayItems : ∀ item ∈ settings.sayItems, item.Fits
  autoRestart : ∀ n ∈ settings.autoRestart, n < Text.word64
  tick : settings.tick < Text.word64
  earlyFire : settings.earlyFire < Text.word64
  speechTimeout : settings.speechTimeout < Text.word64

/-- Every number in the preferences is one of its type: a word, or in single precision. -/
structure Preferences.Fits (p : Preferences) : Prop where
  defaults : p.defaults.Fits
  presets : ∀ preset ∈ p.presets, preset.settings.Fits
  volume : p.audio.volume < 256
  wordsPerMinute : p.audio.wordsPerMinute < Text.word32

-- ---------------------------------------------------------------------------
-- Records
-- ---------------------------------------------------------------------------

theorem DurationInput.restored {input : DurationInput} (h : input.Fits) :
    input.toValue.Restores DurationInput.ofValue? input := by
  intro w hw
  cases input with
  | number n =>
    have hn := Value.Restores.nat h w hw
    cases hw with
    | integer =>
      simp only [ofValue?]
      rw [hn]
      rfl
  | text s =>
    cases hw with
    | string => rfl

theorem SayItem.restored {item : SayItem} (h : item.Fits) :
    item.toValue.Restores SayItem.ofValue? item := by
  refine .record (by cases item.rate <;> simp [Table.ofOption]) fun u hu => ?_
  have hoffset : u.need "offset_ms" (Value.nat? Text.word64) = some item.offset :=
    hu.need rfl (.nat h.offset)
  have hmessage : u.need "message" Value.string? = some item.message :=
    hu.need rfl (.string item.message)
  have hrate : u.optional "rate" Value.single? = some item.rate :=
    hu.optional (by cases item.rate <;> rfl) fun x _ => .single x
  simp [hoffset, hmessage, hrate]

theorem Phrases.restored (phrases : Phrases) :
    phrases.toValue.Restores Phrases.ofValue? phrases := by
  refine .record (by simp) fun u hu => ?_
  have hgone : ∀ default, u.orDefault "gone" Value.string? default = some phrases.gone :=
    hu.orDefault rfl (.string phrases.gone)
  have htoGo : ∀ default, u.orDefault "to_go" Value.string? default = some phrases.toGo :=
    hu.orDefault rfl (.string phrases.toGo)
  have hhalfWay : ∀ default, u.orDefault "half_way" Value.string? default = some phrases.halfWay :=
    hu.orDefault rfl (.string phrases.halfWay)
  simp [hgone, htoGo, hhalfWay]

theorem Settings.restored {settings : Settings} (h : settings.Fits) :
    settings.toValue.Restores Settings.ofValue? settings := by
  obtain ⟨hduration, hsayItems, hautoRestart, htick, hearlyFire, hspeechTimeout⟩ := h
  refine .record (by cases settings.autoRestart <;> simp [Table.ofOption, fieldNames])
    fun u hu => ?_
  have htext (name : String) {text : String} (ht : Table.field? _ name = some (.string text)) :
      ∀ default, u.orDefault name Value.string? default = some text :=
    hu.orDefault ht (.string text)
  have hflag (name : String) {flag : Bool} (ht : Table.field? _ name = some (.boolean flag)) :
      ∀ default, u.orDefault name Value.bool? default = some flag :=
    hu.orDefault ht (.bool flag)
  have hduration : ∀ default,
      u.orDefault "duration" DurationInput.ofValue? default = some settings.duration :=
    hu.orDefault rfl (DurationInput.restored hduration)
  have hsay := htext "say" rfl
  have hsayItems : ∀ default, u.orDefault "say_data" (Value.list? SayItem.ofValue?) default =
      some settings.sayItems :=
    hu.orDefault rfl (.list fun item hitem => SayItem.restored (hsayItems item hitem))
  have hsayMode : ∀ default, u.orDefault "say_data_mode" (Value.choice? SayMode.ofName?) default =
      some settings.sayMode :=
    hu.orDefault rfl (.choice (by cases settings.sayMode <;> rfl))
  have hpriority : ∀ default, u.orDefault "priority" (Value.choice? Priority.ofName?) default =
      some settings.priority :=
    hu.orDefault rfl (.choice (by cases settings.priority <;> rfl))
  have hsayStart := hflag "say_start" rfl
  have hsayEnd := hflag "say_end" rfl
  have hendChime := hflag "end_chime" rfl
  have hstartMessage := htext "start_message" rfl
  have hendMessage := htext "end_message" rfl
  have hautoRestart : u.optional "auto_restart_ms" (Value.nat? Text.word64) =
      some settings.autoRestart :=
    hu.optional (by cases settings.autoRestart <;> rfl) fun n hn => .nat (hautoRestart n hn)
  have hallowPause : ∀ default, u.orDefault "allow_pause" Value.bool? default =
      some settings.allowPause :=
    hu.orDefault (by cases settings.autoRestart <;> rfl) (.bool _)
  have hphrases : ∀ default, u.orDefault "phrases" Phrases.ofValue? default =
      some settings.phrases :=
    hu.orDefault (by cases settings.autoRestart <;> rfl) (Phrases.restored _)
  have htick : ∀ default, u.orDefault "tick_ms" (Value.nat? Text.word64) default =
      some settings.tick :=
    hu.orDefault (by cases settings.autoRestart <;> rfl) (.nat htick)
  have hearlyFire : ∀ default, u.orDefault "early_fire_ms" (Value.nat? Text.word64) default =
      some settings.earlyFire :=
    hu.orDefault (by cases settings.autoRestart <;> rfl) (.nat hearlyFire)
  have hspeechTimeout : ∀ default,
      u.orDefault "speech_timeout_ms" (Value.nat? Text.word64) default =
        some settings.speechTimeout :=
    hu.orDefault (by cases settings.autoRestart <;> rfl) (.nat hspeechTimeout)
  simp [hduration, hsay, hsayItems, hsayMode, hpriority, hsayStart, hsayEnd, hendChime,
    hstartMessage, hendMessage, hautoRestart, hallowPause, hphrases, htick, hearlyFire,
    hspeechTimeout]

theorem Preset.restored {preset : Preset} (h : preset.settings.Fits) :
    preset.toValue.Restores Preset.ofValue? preset := by
  refine .record (by simp) fun u hu => ?_
  have hname : u.need "name" Value.string? = some preset.name := hu.need rfl (.string _)
  have hsettings : u.need "settings" Settings.ofValue? = some preset.settings :=
    hu.need rfl (Settings.restored h)
  simp [hname, hsettings]

theorem AudioSettings.restored {audio : AudioSettings} (hvolume : audio.volume < 256)
    (hwords : audio.wordsPerMinute < Text.word32) :
    audio.toValue.Restores AudioSettings.ofValue? audio := by
  refine .record (by cases audio.voice <;> simp [Table.ofOption]) fun u hu => ?_
  have henabled : ∀ default, u.orDefault "enabled" Value.bool? default = some audio.enabled :=
    hu.orDefault rfl (.bool _)
  have hvolume : ∀ default, u.orDefault "volume" (Value.nat? 256) default = some audio.volume :=
    hu.orDefault rfl (.nat hvolume)
  have hvoice : u.optional "voice" Value.string? = some audio.voice :=
    hu.optional (by cases audio.voice <;> rfl) fun s _ => .string s
  have hwords : ∀ default, u.orDefault "words_per_minute" (Value.nat? Text.word32) default =
      some audio.wordsPerMinute :=
    hu.orDefault (by cases audio.voice <;> rfl) (.nat hwords)
  simp [henabled, hvolume, hvoice, hwords]

theorem Preferences.ofTable?_readAs {p : Preferences} (h : p.Fits) {u : Table}
    (hu : p.toTable.ReadAs u) : ofTable? u = some p := by
  obtain ⟨defaults, presets, active, audio⟩ := p
  have hrecord : u.record? ["defaults", "presets", "active_preset_name", "audio"] = some u :=
    hu.record? (by cases active <;> simp [toTable, Table.ofOption])
  have hdefaults : ∀ default, u.orDefault "defaults" Settings.ofValue? default = some defaults :=
    hu.orDefault rfl (Settings.restored h.defaults)
  have hpresets : ∀ default, u.orDefault "presets" (Value.list? Preset.ofValue?) default =
      some presets :=
    hu.orDefault rfl (.list fun preset hpreset => Preset.restored (h.presets preset hpreset))
  have hactive : u.optional "active_preset_name" Value.string? = some active :=
    hu.optional (by cases active <;> rfl) fun s _ => .string s
  have haudio : ∀ default, u.orDefault "audio" AudioSettings.ofValue? default = some audio :=
    hu.orDefault (by cases active <;> rfl) (AudioSettings.restored h.volume h.wordsPerMinute)
  simp [ofTable?, hrecord, hdefaults, hpresets, hactive, haudio]

-- ---------------------------------------------------------------------------
-- Values that come back as they are
-- ---------------------------------------------------------------------------

theorem DurationInput.readAs_self (input : DurationInput) :
    input.toValue.ReadAs input.toValue := by
  cases input with
  | number n => exact .integer n
  | text s => exact .string s

theorem SayItem.readAs_self {item : SayItem} (h : item.Fits) :
    item.toValue.ReadAs item.toValue := by
  have hrate : ∀ field ∈ Table.ofOption "rate" .float item.rate, field.2.ReadAs field.2 :=
    Table.forall_mem_ofOption fun x hx => .float_self (h.rate x hx)
  refine .table (Table.ReadAs.self (List.forall_mem_append.mpr ⟨?_, hrate⟩))
  simp [Value.ofNat]

theorem Phrases.readAs_self (phrases : Phrases) : phrases.toValue.ReadAs phrases.toValue :=
  .table (Table.ReadAs.self (by simp))

theorem Settings.readAs_self {settings : Settings} (h : settings.Fits) :
    settings.toValue.ReadAs settings.toValue := by
  have hitems := Value.ReadAs.array_self fun item hitem =>
    SayItem.readAs_self (h.sayItems item hitem)
  have hautoRestart : ∀ field ∈ Table.ofOption "auto_restart_ms" .ofNat settings.autoRestart,
      field.2.ReadAs field.2 :=
    Table.forall_mem_ofOption fun n _ => .integer n
  refine .table (Table.ReadAs.self
    (List.forall_mem_append.mpr ⟨List.forall_mem_append.mpr ⟨?_, hautoRestart⟩, ?_⟩))
  · simp [settings.duration.readAs_self, hitems]
  · simp [settings.phrases.readAs_self, Value.ofNat]

theorem Preset.readAs_self {preset : Preset} (h : preset.settings.Fits) :
    preset.toValue.ReadAs preset.toValue :=
  .table (Table.ReadAs.self (by simp [Settings.readAs_self h]))

theorem AudioSettings.readAs_self (audio : AudioSettings) :
    audio.toValue.ReadAs audio.toValue := by
  have hvoice : ∀ field ∈ Table.ofOption "voice" .string audio.voice, field.2.ReadAs field.2 :=
    Table.forall_mem_ofOption fun s _ => .string s
  refine .table (Table.ReadAs.self
    (List.forall_mem_append.mpr ⟨List.forall_mem_append.mpr ⟨?_, hvoice⟩, ?_⟩))
  · simp [Value.ofNat]
  · simp [Value.ofNat]

theorem Preferences.readAs_self {p : Preferences} (h : p.Fits) : p.toTable.ReadAs p.toTable := by
  have hpresets := Value.ReadAs.array_self fun preset hpreset =>
    Preset.readAs_self (h.presets preset hpreset)
  have hactive : ∀ field ∈ Table.ofOption "active_preset_name" .string p.active,
      field.2.ReadAs field.2 :=
    Table.forall_mem_ofOption fun s _ => .string s
  refine Table.ReadAs.self
    (List.forall_mem_append.mpr ⟨List.forall_mem_append.mpr ⟨?_, hactive⟩, ?_⟩)
  · simp [Settings.readAs_self h.defaults, hpresets]
  · simp [p.audio.readAs_self]

-- ---------------------------------------------------------------------------
-- Documents
-- ---------------------------------------------------------------------------

theorem DurationInput.writable {input : DurationInput} (h : input.Fits) (level : Nat) :
    input.toValue.Writable level := by
  cases input with
  | number n => exact .ofNat h
  | text s => exact .string s

theorem SayItem.writable {item : SayItem} (h : item.Fits)
    (hrate : ∀ x ∈ item.rate, ReadsBack x) {level : Nat}
    (hlevel : level < Reader.greatestKeyLength) : item.toValue.Writable level := by
  have hoffset : (Value.ofNat item.offset).Writable (level + 1) := .ofNat h.offset
  refine ⟨hlevel, ?_, fieldsWritable_append ?_ (fieldsWritable_ofOption (by decide) hrate)⟩
  · cases item.rate <;> simp [Table.ofOption]
  · simp only [fieldsWritable, hoffset, Value.Writable.string]
    decide

theorem Phrases.writable (phrases : Phrases) {level : Nat}
    (hlevel : level < Reader.greatestKeyLength) : phrases.toValue.Writable level := by
  refine ⟨hlevel, by simp, ?_⟩
  simp only [fieldsWritable, Value.Writable.string]
  decide

theorem Settings.writable {settings : Settings} (h : settings.Fits)
    (hrates : ∀ item ∈ settings.sayItems, ∀ x ∈ item.rate, ReadsBack x) {level : Nat}
    (hlevel : level + 1 < Reader.greatestKeyLength) : settings.toValue.Writable level := by
  have hduration := DurationInput.writable h.duration (level + 1)
  have hitems : (Value.array (settings.sayItems.map SayItem.toValue)).Writable (level + 1) :=
    itemsWritable_map (fun _ => rfl) fun item hitem =>
      SayItem.writable (h.sayItems item hitem) (hrates item hitem) hlevel
  have hautoRestart : ∀ n ∈ settings.autoRestart, (Value.ofNat n).Writable (level + 1) :=
    fun n hn => .ofNat (h.autoRestart n hn)
  have hphrases := settings.phrases.writable hlevel
  have htick : (Value.ofNat settings.tick).Writable (level + 1) := .ofNat h.tick
  have hearlyFire : (Value.ofNat settings.earlyFire).Writable (level + 1) := .ofNat h.earlyFire
  have hspeechTimeout : (Value.ofNat settings.speechTimeout).Writable (level + 1) :=
    .ofNat h.speechTimeout
  refine ⟨Nat.lt_of_succ_lt hlevel, ?_, fieldsWritable_append (fieldsWritable_append ?_
    (fieldsWritable_ofOption (by decide) hautoRestart)) ?_⟩
  · cases settings.autoRestart <;> simp [Table.ofOption]
  · simp only [fieldsWritable, hduration, hitems, Value.Writable.string, Value.Writable.boolean]
    decide
  · simp only [fieldsWritable, hphrases, htick, hearlyFire, hspeechTimeout, Value.Writable.boolean]
    decide

theorem Preset.writable {preset : Preset} (h : preset.settings.Fits)
    (hrates : ∀ item ∈ preset.settings.sayItems, ∀ x ∈ item.rate, ReadsBack x) {level : Nat}
    (hlevel : level + 2 < Reader.greatestKeyLength) : preset.toValue.Writable level := by
  have hsettings := Settings.writable h hrates hlevel
  refine ⟨by omega, by simp, ?_⟩
  simp only [fieldsWritable, hsettings, Value.Writable.string]
  decide

theorem AudioSettings.writable {audio : AudioSettings} (hvolume : audio.volume < 256)
    (hwords : audio.wordsPerMinute < Text.word32) {level : Nat}
    (hlevel : level < Reader.greatestKeyLength) : audio.toValue.Writable level := by
  have hvolume : (Value.ofNat audio.volume).Writable (level + 1) :=
    .ofNat (Nat.lt_trans hvolume (by decide))
  have hwords : (Value.ofNat audio.wordsPerMinute).Writable (level + 1) :=
    .ofNat (Nat.lt_trans hwords (by decide))
  refine ⟨hlevel, ?_, fieldsWritable_append (fieldsWritable_append ?_
    (fieldsWritable_ofOption (by decide) fun s _ => .string s)) ?_⟩
  · cases audio.voice <;> simp [Table.ofOption]
  · simp only [fieldsWritable, hvolume, Value.Writable.boolean]
    decide
  · simp only [fieldsWritable, hwords]
    decide

namespace Preferences

def rates (p : Preferences) : List Binary :=
  (p.defaults :: p.presets.map (·.settings)).flatMap fun settings =>
    settings.sayItems.filterMap (·.rate)

theorem mem_rates {p : Preferences} {settings : Settings} {item : SayItem} {x : Binary}
    (hsettings : settings ∈ p.defaults :: p.presets.map (·.settings))
    (hitem : item ∈ settings.sayItems) (hx : x ∈ item.rate) : x ∈ p.rates :=
  List.mem_flatMap.mpr ⟨settings, hsettings, List.mem_filterMap.mpr ⟨item, hitem, hx⟩⟩

theorem inFormat_of_mem_rates {p : Preferences} (h : p.Fits) {x : Binary} (hx : x ∈ p.rates) :
    x.InFormat .single := by
  obtain ⟨settings, hsettings, hx⟩ := List.mem_flatMap.mp hx
  obtain ⟨item, hitem, hx⟩ := List.mem_filterMap.mp hx
  have hfits : settings.Fits := by
    rcases List.mem_cons.mp hsettings with rfl | hsettings
    · exact h.defaults
    · obtain ⟨preset, hpreset, rfl⟩ := List.mem_map.mp hsettings
      exact h.presets preset hpreset
  exact (hfits.sayItems item hitem).rate x hx

theorem writable {p : Preferences} (h : p.Fits) (hrates : ∀ x ∈ p.rates, ReadsBack x) :
    fieldsWritable 0 p.toTable := by
  have hdefaults : p.defaults.toValue.Writable 0 :=
    Settings.writable h.defaults
      (fun _ hitem x hx => hrates x (mem_rates List.mem_cons_self hitem hx)) (by decide)
  have hpresets : (Value.array (p.presets.map Preset.toValue)).Writable 0 := by
    refine itemsWritable_map (fun _ => rfl) fun preset hpreset =>
      Preset.writable (h.presets preset hpreset) (fun _ hitem x hx => ?_) (by decide)
    exact hrates x (mem_rates (List.mem_cons_of_mem _ (List.mem_map_of_mem hpreset)) hitem hx)
  have haudio : p.audio.toValue.Writable 0 :=
    AudioSettings.writable h.volume h.wordsPerMinute (by decide)
  refine fieldsWritable_append (fieldsWritable_append ?_
    (fieldsWritable_ofOption (by decide) fun s _ => .string s)) ?_
  · simp only [fieldsWritable, hdefaults, hpresets]
    decide
  · simp only [fieldsWritable, haudio]
    decide

theorem ofText?_toText {p : Preferences} (h : p.Fits) (hrates : ∀ x ∈ p.rates, ReadsBack x) :
    ofText? p.toText = some p := by
  have hnodup : (p.toTable.map Prod.fst).Nodup := by
    obtain ⟨defaults, presets, active, audio⟩ := p
    cases active <;> simp [toTable, Table.ofOption]
  obtain ⟨u, hu, hread⟩ := Table.ofText?_write hnodup (writable h hrates)
  rw [ofText?, toText, hu]
  exact ofTable?_readAs h hread

/-- Nothing is lost between the preferences and the values of their document, nor
if a reader of documents comes between: it may hand back each rate as it is, or as
the equal number in double precision. And nothing is lost in the file. -/
theorem saved_restored (p : Preferences) (h : p.Fits) :
    ofTable? p.toTable = some p ∧
      (∀ u, p.toTable.ReadAs u → ofTable? u = some p) ∧
      (∀ x ∈ p.rates, (Value.float x).ReadAs (.float x) ∧
        (Value.float x).ReadAs (.float (x.convert .double))) ∧
      ((∀ x ∈ p.rates, ReadsBack x) → ∀ file saved : PreferencesFile,
        file.save p = .ok saved → saved.load = .ok (saved, p)) := by
  refine ⟨ofTable?_readAs h (readAs_self h), fun u hu => ofTable?_readAs h hu, fun x hx => ?_,
    fun hrates file saved hsave => ?_⟩
  · have hformat := inFormat_of_mem_rates h hx
    exact ⟨.float_self hformat, .float_double hformat⟩
  have hsaved : saved = .text p.toText := by
    cases file with
    | folder => simp [PreferencesFile.save] at hsave
    | _ => exact (Except.ok.inj hsave).symm
  simp [hsaved, PreferencesFile.load, ofText?_toText h hrates]

/-- Durations as a number and as a text, fields that are there and that are left
out, and texts of all four written forms. -/
def workout : Preferences where
  defaults :=
    { duration := .text "90"
      say := "1/2 'last' \"10s\""
      sayItems := [⟨30000, "half\nway", some (.finite false 10485760 (-23))⟩, ⟨0, "", none⟩]
      sayMode := .merge }
  presets :=
    [⟨"C:\\plank",
        { duration := .number 90, autoRestart := some 0, phrases := { gone := "\x07" } }⟩,
      ⟨"", {}⟩]
  active := some "it's"
  audio := { voice := some "default", volume := 255 }

theorem workout_fits : workout.Fits where
  defaults := ⟨trivial, by decide, by decide, by decide, by decide, by decide⟩
  presets := by
    intro preset hpreset
    simp only [workout, List.mem_cons, List.not_mem_nil, or_false] at hpreset
    obtain rfl | rfl := hpreset
    · exact ⟨show 90 < Text.word64 by decide, by decide, by decide, by decide, by decide,
        by decide⟩
    · exact ⟨trivial, by decide, by decide, by decide, by decide, by decide⟩
  volume := by decide
  wordsPerMinute := by decide

theorem saved_restored_workout :
    workout.Fits ∧ ofTable? workout.toTable = some workout ∧
      (∃ u, workout.toTable.ReadAs u ∧ ofTable? u = some workout) ∧
      (∀ x ∈ workout.rates, ReadsBack x) ∧
      PreferencesFile.absent.save workout = .ok (.text workout.toText) ∧
      PreferencesFile.load (.text workout.toText) = .ok (.text workout.toText, workout) := by
  have hrates : ∀ x ∈ workout.rates, ReadsBack x := by decide +kernel
  obtain ⟨hplain, hmapping, -, hfile⟩ := saved_restored workout workout_fits
  obtain ⟨u, -, hread⟩ := Table.ofText?_write (by decide) (writable workout_fits hrates)
  exact ⟨workout_fits, hplain, ⟨u, hread, hmapping u hread⟩, hrates, rfl,
    hfile hrates .absent _ rfl⟩

end Preferences

end SpokenCountdown
