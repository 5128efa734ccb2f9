import SpectrumPacking.Proofs.Text.Layouts
import SpectrumPacking.Proofs.Text.Numerals
import SpectrumPacking.Question.Basic

/-!
# Entries of Question Texts

A question is written entry by entry, in any order and with idle lines in between
(`Question.IsWrittenAs`).  Reading gathers the entries: whatever their order, of each kind it holds
one that has been said (`Question.Draft.gathered_foldl`).  A question says each of its entries once,
so it is read from every text in which it is written (`Question.ofText_of_entries`).
-/

namespace SpectrumPacking

open Text Text.Numeral

/-! ## §1 Names of Bands -/

namespace Band

/-- The names of a band. -/
def names : Band → List String
  | lowVhf => ["LVHF"]
  | highVhf => ["HVHF", "UVHF"]
  | uhf => ["UHF", "3"]

/-- The text is a name of the band, in any letter case. -/
def IsNamed (b : Band) (t : List Char) : Prop := ∃ name ∈ b.names, IsTag name t

variable {b : Band} {name : String} {t : List Char}

theorem isTagName_of_mem_names (h : name ∈ b.names) :
    IsTagName name = true ∧ name.toList ≠ [] := by
  revert name
  cases b <;> decide

theorem IsNamed.isField (h : b.IsNamed t) : IsField t := by
  obtain ⟨name, hname, htag⟩ := h
  obtain ⟨htagName, hne⟩ := isTagName_of_mem_names hname
  exact (htag.isField htagName hne).1

/-- A band is known by each of its names. -/
theorem ofText?_of_isNamed (h : b.IsNamed t) : ofText? t = some b := by
  have htrim := h.isField.trim_eq
  obtain ⟨name, hname, htag⟩ := h
  have hupper := (htag.upper_eq (isTagName_of_mem_names hname).1).1
  rw [ofText?, htrim, hupper, String.ofList_toList]
  revert name
  cases b <;> simp [names]

end Band

namespace Question

/-! ## §2 Entries -/

/-- What a line of a question text can say. -/
inductive Entry where
  /-- The key of the dataset. -/
  | dataset (key : List Char)
  /-- The band to pack into. -/
  | band (b : Band)
  /-- The highest channel to use. -/
  | highest (c : Channel)
  /-- A station to pack, and perhaps its channel in an earlier packing. -/
  | station (s : StationId) (previous : Option Channel)
  deriving DecidableEq

/-- The words that start the lines of entries, those of stations apart. -/
def keywords : List (List Char) := ["STATION_CONFIG".toList, "BAND".toList, "HIGHEST".toList]

/-- The first two fields of a line say an entry. -/
inductive Entry.Fields : Entry → List Char → List Char → Prop where
  | dataset {key} (hkey : IsFieldText key) : Fields (.dataset key) "STATION_CONFIG".toList key
  | band {b t} (ht : b.IsNamed t) : Fields (.band b) "BAND".toList t
  | highest {c t} (ht : DenotesWithin 32 t c) : Fields (.highest c) "HIGHEST".toList t
  | station {s w} (hw : DenotesNatWithin 32 w s) : Fields (.station s none) w []
  | previous {s w c t} (hw : DenotesNatWithin 32 w s) (ht : DenotesWithin 32 t c) :
      Fields (.station s (some c)) w t

/-- A line says an entry. -/
def Shows (line : List Char) (e : Entry) : Prop :=
  ∃ key value, Opens line key value ∧ e.Fields key value

/-- A line says nothing: it is blank, it starts with a number sign, or its first field is neither a
keyword nor the numeral of a station. -/
inductive IsIdle : List Char → Prop where
  | blank {g} (hg : IsGap g) : IsIdle g
  | remark {g t} (hg : IsGap g) : IsIdle (g ++ '#' :: t)
  | other {line key} (h : Leads line key) (hkey : IsFieldText key) (hword : ¬ key ∈ keywords)
      (hnumeral : ∀ s, ¬ DenotesNatWithin 32 key s) : IsIdle line

/-- The entries of a question. -/
def entries (q : Question) : List Entry :=
  .dataset q.dataset.toList :: .band q.band :: q.highest.toList.map .highest ++
    q.stations.toList.map fun s => .station s (q.previous.get? s)

/-- A text says the entries of a question, in any order. -/
def IsWrittenAs (q : Question) (text : List Char) : Prop :=
  ∃ es, Telling IsIdle Shows text es ∧ es.Perm q.entries

/-! ## §3 Reading Lines -/

section Fields

variable {q : Draft} {key value t w : List Char} {s : StationId} {c : Channel} {e : Entry}

/-- A numeral is a field without letters. -/
theorem isField_of_denotes {x : Int} (h : Denotes w x) : IsField w ∧ w.head? ≠ some '#' := by
  have hnot : ∀ {c : Char}, ¬ (c = '+' ∨ c = '-' ∨ c.isDigit = true) → ¬ c ∈ w :=
    fun hc hmem => hc (h.sign_or_digit hmem)
  exact ⟨h.isWord.isField (hnot (by decide)),
    fun hhead => hnot (by decide) (List.mem_of_head? hhead)⟩

theorem not_mem_keywords_of_denotes {x : Int} (h : Denotes w x) : ¬ w ∈ keywords := by
  have hletter : ∀ {c}, ¬ (c = '+' ∨ c = '-' ∨ c.isDigit = true) → ¬ w.head? = some c :=
    fun hc hhead => hc (h.sign_or_digit (List.mem_of_head? hhead))
  intro hw
  simp only [keywords, List.mem_cons, List.not_mem_nil, or_false] at hw
  obtain rfl | rfl | rfl := hw
  · exact hletter (c := 'S') (by decide) rfl
  · exact hletter (c := 'B') (by decide) rfl
  · exact hletter (c := 'H') (by decide) rfl

theorem channelField_of_denotes (h : DenotesWithin 32 t c) : channelField t = .ok c := by
  rw [channelField, Channel.ofText?, intWithin?_eq_some_iff.2 h]

theorem stationId_of_denotes (h : DenotesNatWithin 32 w s) : StationId.ofText? w = some s :=
  natWithin?_eq_some_iff.2 h

theorem beq_keywords (h : ¬ key ∈ keywords) :
    (key == "STATION_CONFIG".toList) = false ∧ (key == "BAND".toList) = false ∧
      (key == "HIGHEST".toList) = false := by
  simpa [keywords] using h

/-- The first field of an entry is not empty, and it does not start with a number sign. -/
theorem Entry.Fields.isField_key (h : e.Fields key value) :
    IsField key ∧ key.head? ≠ some '#' := by
  have hkeyword : ∀ {k : List Char}, IsWord k → ¬ ',' ∈ k → k.head? ≠ some '#' →
      IsField k ∧ k.head? ≠ some '#' := fun hk hcomma hhash => ⟨hk.isField hcomma, hhash⟩
  cases h with
  | dataset _ => exact hkeyword (.of_all (by decide) (by decide)) (by decide) (by decide)
  | band _ => exact hkeyword (.of_all (by decide) (by decide)) (by decide) (by decide)
  | highest _ => exact hkeyword (.of_all (by decide) (by decide)) (by decide) (by decide)
  | station hw => exact isField_of_denotes hw.denotes.denotes
  | previous hw _ => exact isField_of_denotes hw.denotes.denotes

theorem Entry.Fields.isFieldText_value (h : e.Fields key value) : IsFieldText value := by
  cases h with
  | dataset hkey => exact hkey
  | band ht => exact ht.isField.isFieldText
  | highest ht => exact (isField_of_denotes ht.denotes).1.isFieldText
  | station _ => exact isFieldText_nil
  | previous _ ht => exact (isField_of_denotes ht.denotes).1.isFieldText

end Fields

namespace Draft

variable {q : Draft} {file : Path} {n : Nat} {line key value : List Char} {e : Entry}
  {es past : List Entry}

/-- Takes an entry in. -/
def record (q : Draft) : Entry → Draft
  | .dataset key => { q with dataset := some key }
  | .band b => { q with band := some b }
  | .highest c => { q with highest := some c }
  | .station s none => { q with stations := q.stations.insert s }
  | .station s (some c) =>
    { q with stations := q.stations.insert s, previous := q.previous.insert s c }

/-- The fields of an entry are read as the entry. -/
theorem readEntry_of_fields (h : e.Fields key value) :
    q.readEntry key value = .ok (q.record e) := by
  cases h with
  | dataset hkey => rfl
  | band ht => simp [readEntry, Band.ofText?_of_isNamed ht, record]
  | highest ht => simp [readEntry, channelField_of_denotes ht, record, Except.map]
  | station hw =>
    obtain ⟨hconfig, hband, hhighest⟩ :=
      beq_keywords (not_mem_keywords_of_denotes hw.denotes.denotes)
    simp only [readEntry, hconfig, hband, hhighest, Bool.false_eq_true, if_false,
      stationId_of_denotes hw, List.isEmpty_nil, if_true, record]
  | previous hw ht =>
    obtain ⟨hconfig, hband, hhighest⟩ :=
      beq_keywords (not_mem_keywords_of_denotes hw.denotes.denotes)
    have hfilled : value.isEmpty = false := by simpa using ht.denotes.ne_nil
    simp only [readEntry, hconfig, hband, hhighest, Bool.false_eq_true, if_false,
      stationId_of_denotes hw, hfilled, channelField_of_denotes ht, Except.map, record]

/-- A line that says an entry is read as the entry. -/
theorem readLine_of_shows (h : Shows line e) : readLine file n q line = .ok (q.record e) := by
  obtain ⟨key, value, hopens, hfields⟩ := h
  have hkey := hfields.isField_key
  have hpair : keyAndValue line = (key, value) := by
    obtain ⟨hline, rfl⟩ | ⟨more, hline⟩ :=
      hopens.fields_eq hkey.1.isFieldText hfields.isFieldText_value
    · rw [keyAndValue, hline]
    · rw [keyAndValue, hline]
  have hfilled : (key.isEmpty || key.head? == some '#') = false := by
    simp [hkey.1.ne_nil, hkey.2]
  simp only [readLine, hpair, hfilled, readEntry_of_fields hfields, Bool.false_eq_true, if_false]

/-- An idle line is passed over. -/
theorem readLine_of_isIdle (h : IsIdle line) : readLine file n q line = .ok q := by
  have hskip : ∀ {key value}, keyAndValue line = (key, value) →
      (key = [] ∨ key.head? = some '#') → readLine file n q line = .ok q := by
    intro key value hpair hkey
    have hnone : (key.isEmpty || key.head? == some '#') = true := by
      simpa using hkey
    simp only [readLine, hpair, hnone, if_true]
  have hfirst : ∀ {key more}, fields line = key :: more →
      ∃ value, keyAndValue line = (key, value) := by
    intro key more hline
    cases more with
    | nil => exact ⟨[], by rw [keyAndValue, hline]⟩
    | cons value more => exact ⟨value, by rw [keyAndValue, hline]⟩
  cases h with
  | blank hg =>
    have hframe : Frames line [] := ⟨line, [], hg, isGap_nil, by simp⟩
    obtain ⟨value, hpair⟩ := hfirst (hframe.fields_eq isFieldText_nil)
    exact hskip hpair (.inl rfl)
  | @remark g t hg =>
    -- the number sign starts the first field, wherever that ends
    obtain ⟨r, hr⟩ := exists_trim_cons (c := '#') (t := (cut (· == ',') t).1) (by decide)
    have hline : fields (g ++ '#' :: t) = ('#' :: r) :: ((cut (· == ',') t).2).map trim := by
      rw [fields_append_left hg, fields, splitAtChar, pieces_cons_of_neg (by decide), List.map_cons,
        hr]
    obtain ⟨value, hpair⟩ := hfirst hline
    exact hskip hpair (.inr rfl)
  | @other _ key h hkey hword hnumeral =>
    obtain ⟨more, hline⟩ := h.fields_eq hkey
    obtain ⟨value, hpair⟩ := hfirst hline
    obtain ⟨hconfig, hband, hhighest⟩ := beq_keywords hword
    have hnone : StationId.ofText? key = none := natWithin?_eq_none_iff.2 hnumeral
    have hread : q.readEntry key value = .ok q := by
      simp only [readEntry, hconfig, hband, hhighest, Bool.false_eq_true, if_false, hnone]
    simp only [readLine, hpair, hread, ite_self]

/-! ## §4 Gathering Entries -/

/-- A value is one of those that have been said, and it is missing if none has been said. -/
structure IsOneOf {α : Type} (o : Option α) (Said : α → Prop) : Prop where
  said : ∀ a, o = some a → Said a
  none_said : o = none → ∀ a, ¬ Said a

section OneOf

variable {α : Type} {o : Option α} {Said Said' : α → Prop} {a : α}

theorem isOneOf_some (h : Said a) : IsOneOf (some a) Said :=
  ⟨fun _ hb => Option.some.inj hb ▸ h, nofun⟩

theorem IsOneOf.congr (h : IsOneOf o Said) (hsaid : ∀ a, Said' a ↔ Said a) : IsOneOf o Said' :=
  ⟨fun a ha => (hsaid a).2 (h.said a ha), fun hnone a ha => h.none_said hnone a ((hsaid a).1 ha)⟩

/-- What has been said of one value alone is that value. -/
theorem IsOneOf.eq (h : IsOneOf o Said) {o' : Option α} (ho' : ∀ a, Said a → o' = some a)
    (hsaid : ∀ a, o' = some a → Said a) : o = o' := by
  cases ho : o with
  | some a => exact (ho' a (h.said a ho)).symm
  | none =>
    cases hother : o' with
    | none => rfl
    | some a => exact absurd (hsaid a hother) (h.none_said ho a)

end OneOf

/-- The draft holds of each kind of entry one that has been said, and all the stations. -/
structure Gathered (es : List Entry) (q : Draft) : Prop where
  dataset : IsOneOf q.dataset fun key => Entry.dataset key ∈ es
  band : IsOneOf q.band fun b => Entry.band b ∈ es
  highest : IsOneOf q.highest fun c => Entry.highest c ∈ es
  stations : ∀ s, s ∈ q.stations ↔ ∃ previous, Entry.station s previous ∈ es
  previous : ∀ s, IsOneOf (q.previous.get? s) fun c => Entry.station s (some c) ∈ es

theorem gathered_empty : Gathered [] {} := by
  refine ⟨⟨nofun, nofun⟩, ⟨nofun, nofun⟩, ⟨nofun, nofun⟩, fun s => ?_, fun s => ⟨nofun, nofun⟩⟩
  simp

/-- One more entry is gathered. -/
theorem Gathered.record (h : Gathered past q) : Gathered (past ++ [e]) (q.record e) := by
  cases e with
  | dataset key =>
    exact ⟨isOneOf_some (by simp), h.band.congr (by simp), h.highest.congr (by simp),
      fun s => by simp [Draft.record, h.stations s], fun s => (h.previous s).congr (by simp)⟩
  | band b =>
    exact ⟨h.dataset.congr (by simp), isOneOf_some (by simp), h.highest.congr (by simp),
      fun s => by simp [Draft.record, h.stations s], fun s => (h.previous s).congr (by simp)⟩
  | highest c =>
    exact ⟨h.dataset.congr (by simp), h.band.congr (by simp), isOneOf_some (by simp),
      fun s => by simp [Draft.record, h.stations s], fun s => (h.previous s).congr (by simp)⟩
  | station t previous =>
    have hstations : ∀ s, s ∈ q.stations.insert t ↔
        ∃ c, Entry.station s c ∈ past ++ [.station t previous] := by
      intro s
      rw [SortedSet.mem_insert, h.stations]
      simp only [List.mem_append, List.mem_singleton, Entry.station.injEq, exists_or,
        exists_and_left, exists_eq, and_true]
      exact or_comm
    cases previous with
    | none =>
      exact ⟨h.dataset.congr (by simp), h.band.congr (by simp), h.highest.congr (by simp),
        hstations, fun s => (h.previous s).congr (by simp)⟩
    | some c =>
      refine ⟨h.dataset.congr (by simp), h.band.congr (by simp), h.highest.congr (by simp),
        hstations, fun s => ?_⟩
      -- the channel that is said last is kept
      show IsOneOf ((q.previous.insert t c).get? s) _
      rw [SortedMap.get?_insert]
      split
      · rename_i hts
        exact isOneOf_some (by simp [hts])
      · rename_i hts
        exact (h.previous s).congr (by simp [Ne.symm hts])

/-- Reading entries gathers them. -/
theorem Gathered.foldl (h : Gathered past q) : Gathered (past ++ es) (es.foldl Draft.record q) := by
  induction es generalizing past q with
  | nil => rwa [List.append_nil]
  | cons e es ih =>
    rw [List.append_cons]
    exact ih h.record

theorem gathered_foldl : Gathered es (es.foldl Draft.record {}) := gathered_empty.foldl

/-- A draft that has gathered the entries of a question amounts to the question. -/
theorem Gathered.finish_eq {r : Question} (h : Gathered es q) (hes : es.Perm r.entries)
    (hprevious : ∀ s c, r.previous.get? s = some c → s ∈ r.stations) :
    q.finish file = .ok r := by
  -- what was gathered does not depend on the order of the entries
  have hdataset : q.dataset = some r.dataset.toList :=
    h.dataset.eq (by simp [hes.mem_iff, entries]) (by simp [hes.mem_iff, entries])
  have hband : q.band = some r.band :=
    h.band.eq (by simp [hes.mem_iff, entries]) (by simp [hes.mem_iff, entries])
  have hhighest : q.highest = r.highest :=
    h.highest.eq (by simp [hes.mem_iff, entries]) (by simp [hes.mem_iff, entries])
  have hstations : q.stations = r.stations := by
    apply SortedSet.ext
    intro s
    rw [h.stations]
    simp [hes.mem_iff, entries]
  have hplacement : q.previous = r.previous := by
    apply SortedMap.ext
    intro s
    refine (h.previous s).eq (fun c hc => ?_) (fun c hc => ?_)
    · simp only [hes.mem_iff, entries, List.mem_append, List.mem_cons, List.mem_map,
        SortedSet.mem_toList, Entry.station.injEq, reduceCtorEq, false_or, and_false, exists_false]
        at hc
      obtain ⟨t, -, rfl, hprevious⟩ := hc
      exact hprevious
    · simp only [hes.mem_iff, entries, List.mem_append, List.mem_map, SortedSet.mem_toList]
      exact .inr ⟨s, hprevious s c hc, by rw [hc]⟩
  simp only [Draft.finish, hdataset, hband, hhighest, hstations, hplacement, String.ofList_toList]

end Draft

/-- A question is read from every text that says its entries, whatever their order and their
layout. -/
theorem ofText_of_entries (q : Question)
    (hprevious : ∀ s c, q.previous.get? s = some c → s ∈ q.stations) (file : Path)
    (text : List Char) (h : q.IsWrittenAs text) : ofText file text = .ok q := by
  obtain ⟨es, htext, hes⟩ := h
  have hread : foldLines (Draft.readLine file) 1 {} (lines text)
      = .ok (es.foldl Draft.record {}) := by
    rw [htext.foldLines_eq (f := fun d e => .ok (Draft.record d e))]
    · exact List.foldlM_pure
    · intro n d l l' hl
      rw [Draft.readLine, Draft.readLine, keyAndValue, keyAndValue, ← fields_trim, hl, fields_trim]
    · exact fun n d => rfl
    · exact fun line hline n d => Draft.readLine_of_isIdle hline
    · exact fun e _ line hline n d => Draft.readLine_of_shows hline
  rw [ofText, hread]
  exact Draft.gathered_foldl.finish_eq hes hprevious

/-- A question with one station that has a previous channel, and another that has none. -/
def sample : Question where
  dataset := "nov 2013"
  band := .highVhf
  highest := some 12
  stations := SortedSet.ofList [7, 101]
  previous := SortedMap.ofList [(101, -3)]

/-- The entries are out of order, with idle lines and further fields in between. -/
theorem ofText_of_entries_sample :
    let text := (" # q\n101 , -3 ,x,\nHIGHEST,+12\r\n\nband,UHF\nBAND,hVhf\n007,,9\n" ++
      "STATION_CONFIG,\tnov 2013\n-5,x").toList
    ((∀ s c, sample.previous.get? s = some c → s ∈ sample.stations) ∧ sample.IsWrittenAs text) ∧
      ofText ⟨"q.txt"⟩ text = .ok sample := by
  intro text
  have hprevious : ∀ s c, sample.previous.get? s = some c → s ∈ sample.stations := by
    intro s c h
    obtain h | h := SortedMap.mem_of_get?_insertMany h
    · obtain ⟨rfl, -⟩ : s = 101 ∧ c = -3 := by simpa using h
      decide
    · cases h
  have hwritten : sample.IsWrittenAs text := by
    refine ⟨[.station 101 (some (-3)), .highest 12, .band .highVhf, .station 7 none,
      .dataset "nov 2013".toList], ⟨[" # q".toList, "101 , -3 ,x,".toList, "HIGHEST,+12\r".toList,
        [], "band,UHF".toList, "BAND,hVhf".toList, "007,,9".toList,
        "STATION_CONFIG,\tnov 2013".toList, "-5,x".toList], ?_, by decide, by decide⟩, by decide⟩
    have hstation : Shows "101 , -3 ,x,".toList (.station 101 (some (-3))) :=
      ⟨"101".toList, "-3".toList, opens_of_fields (.inr ⟨["x".toList, []], by decide⟩),
        .previous (natWithin?_eq_some_iff.1 (by decide)) (intWithin?_eq_some_iff.1 (by decide))⟩
    have hhighest : Shows "HIGHEST,+12\r".toList (.highest 12) :=
      ⟨_, "+12".toList, opens_of_fields (.inr ⟨[], by decide⟩),
        .highest (intWithin?_eq_some_iff.1 (by decide))⟩
    have hband : Shows "BAND,hVhf".toList (.band .highVhf) :=
      ⟨_, "hVhf".toList, opens_of_fields (.inr ⟨[], by decide⟩),
        .band ⟨"HVHF", by decide, by decide⟩⟩
    have hbare : Shows "007,,9".toList (.station 7 none) :=
      ⟨"007".toList, [], opens_of_fields (.inr ⟨["9".toList], by decide⟩),
        .station (natWithin?_eq_some_iff.1 (by decide))⟩
    have hdataset : Shows "STATION_CONFIG,\tnov 2013".toList (.dataset "nov 2013".toList) :=
      ⟨_, "nov 2013".toList, opens_of_fields (.inr ⟨[], by decide⟩),
        .dataset ⟨by decide, by decide⟩⟩
    have hother : ∀ line key more, fields line = key :: more → IsFieldText key →
        ¬ key ∈ keywords → StationId.ofText? key = none → IsIdle line :=
      fun _ _ _ hline hkey hword hnone =>
        .other (leads_of_fields hline) hkey hword (natWithin?_eq_none_iff.1 hnone)
    have hlower : IsIdle "band,UHF".toList :=
      hother _ "band".toList ["UHF".toList] (by decide) ⟨by decide, by decide⟩ (by decide)
        (by decide)
    have hnegative : IsIdle "-5,x".toList :=
      hother _ "-5".toList ["x".toList] (by decide) ⟨by decide, by decide⟩ (by decide) (by decide)
    exact .idle (.remark (g := [' ']) (t := " q".toList) (by decide)) <| .item hstation <|
      .item hhighest <| .idle (.blank isGap_nil) <| .idle hlower <| .item hband <| .item hbare <|
      .item hdataset <| .idle hnegative .nil
  exact ⟨⟨hprevious, hwritten⟩, ofText_of_entries sample hprevious ⟨"q.txt"⟩ text hwritten⟩

end Question

end SpectrumPacking
