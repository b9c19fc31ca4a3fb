import ModuleRig.Proofs.Coordinate.Key
import ModuleRig.Proofs.Json.Compact

/-!
# A coordinate is read back from what it shows

The text of a coordinate that was read has no blanks left at its ends, so it is read as the same
coordinate. Its JSON also says whether the coordinate is changing, and is read back whatever it
says. `reads_back` has both, and that a key stands for one group, one name and one selector.
-/

namespace ModuleRig

theorem Version.Selector.ofJson?_toJson {text : String} {s : Selector} (h : parse text = .ok s) :
    ofJson? s.toJson = some s := by
  unfold ofJson? toJson
  simp [Json.ofText, Json.text?, parse_text h, Except.toOption]

namespace Coordinate

open Version (Selector)

variable {text : String} {c : Coordinate}

/-! ## The text -/

theorem toList_text (c : Coordinate) :
    c.text.toList = c.group.toList ++ ':' :: (c.name.toList ++ ':' :: c.selector.text.toList) := by
  simp [Coordinate.text]

theorem isTrimmed_text (h : parse text = .ok c) : Text.IsTrimmed c.text.toList := by
  obtain ⟨selector, hsplit, hgroup, -, hselector, -⟩ := parse_eq_ok_iff.1 h
  have hne := ne_nil_of_isSafeName hgroup
  have hwhole : Text.IsTrimmed (c.group.toList ++ ':' :: (c.name.toList ++ ':' :: selector)) := by
    have hjoin := Text.joinWith_splitOn ':' (Text.trim text.toList)
    rw [hsplit] at hjoin
    have := Text.isTrimmed_trim text.toList
    rwa [← hjoin] at this
  rw [toList_text]
  refine ⟨(Text.stopsAt_append_iff hne).2 ((Text.stopsAt_append_iff hne).1 hwhole.front), ?_⟩
  -- At its end the text shows the selector, and that was trimmed by itself.
  have hend : (Text.trim selector).reverse ≠ [] := by
    rw [Selector.parse_eq_ofTrimmed] at hselector
    simpa using Selector.ne_nil_of_ofTrimmed hselector
  rw [Selector.toList_text_of_parse hselector]
  simp only [List.reverse_append, List.reverse_cons, List.append_assoc]
  exact (Text.stopsAt_append_iff hend).2 (Text.isTrimmed_trim selector).back

theorem colon_not_mem_selector (h : parse text = .ok c) : ':' ∉ c.selector.text.toList := by
  obtain ⟨selector, hsplit, -, -, hselector, -⟩ := parse_eq_ok_iff.1 h
  rw [Selector.toList_text_of_parse hselector]
  intro hmem
  have hpiece : selector ∈ Text.splitOn ':' (Text.trim text.toList) := by simp [hsplit]
  exact Text.not_mem_of_mem_splitOn hpiece (Text.mem_of_mem_trim hmem)

theorem parse_text (h : parse text = .ok c) : parse c.text = .ok c := by
  obtain ⟨selector, -, hgroup, hname, hselector, hchanging⟩ := parse_eq_ok_iff.1 h
  obtain ⟨hgroupColon, hnameColon, -⟩ := (isRead_of_parse h).parts
  refine parse_eq_ok_iff.2 ⟨c.selector.text.toList, ?_, hgroup, hname, ?_, hchanging⟩
  · rw [Text.trim_of_isTrimmed (isTrimmed_text h), splitOn_text hgroupColon hnameColon,
      Text.splitOn_of_not_mem (colon_not_mem_selector h)]
  · rw [String.ofList_toList]
    exact Selector.parse_text hselector

/-! ## The JSON -/

theorem isExact_toJson (c : Coordinate) : c.toJson.IsExact := by
  apply Json.isExact_ofFields
  simp only [List.forall_mem_cons]
  exact ⟨Json.isExact_ofText _, Json.isExact_ofText _, Json.isExact_ofText _, Json.isExact_bool _,
    by simp⟩

theorem ofJson?_toJson (h : Selector.ofJson? c.selector.toJson = some c.selector) :
    ofJson? c.toJson = some c := by
  have hrecord : Json.record? ["group", "name", "selector", "changing"] c.toJson =
      some [some (.ofText c.group), some (.ofText c.name), some c.selector.toJson,
        some (.bool c.changing)] := by
    simp [toJson, Json.ofFields, Json.record?, Json.field?, Json.fieldValues]
  unfold ofJson?
  rw [hrecord]
  simp [Json.required?, Json.ofText, Json.text?, Json.bool?, h]

/-- A coordinate is read back from its text and from its JSON, and its key is that of its parts. -/
theorem reads_back (text : String) (c : Coordinate) (h : parse text = .ok c) :
    parse c.text = .ok c ∧
      (∀ changing,
        (Json.read? (c.withChanging changing).toJson.compact).bind ofJson? =
            some (c.withChanging changing) ∧
          (Json.read? (c.withChanging changing).toJson.pretty).bind ofJson? =
            some (c.withChanging changing)) ∧
      ∀ text' c', parse text' = .ok c' → (c.cacheKey = c'.cacheKey ↔
        c.group = c'.group ∧ c.name = c'.name ∧ c.selector = c'.selector) := by
  refine ⟨parse_text h, fun changing => ?_, fun text' c' h' => ?_⟩
  · obtain ⟨selector, -, -, -, hselector, -⟩ := parse_eq_ok_iff.1 h
    have hjson : ofJson? (c.withChanging changing).toJson = some (c.withChanging changing) :=
      ofJson?_toJson (Selector.ofJson?_toJson hselector)
    have hexact := isExact_toJson (c.withChanging changing)
    rw [Json.read?_compact hexact, Json.read?_pretty hexact]
    exact ⟨hjson, hjson⟩
  · exact cacheKey_eq_iff (isRead_of_parse h) (isRead_of_parse h')

def spacedSample : Coordinate := ⟨"g g.h", " n ", .exact "1-SNAPSHOT", true⟩

theorem reads_back_of_blanks :
    parse " g g.h: n : 1-SNAPSHOT " = .ok spacedSample ∧
      parse "g g.h: n :1-SNAPSHOT" = .ok spacedSample ∧
      (Json.read? (spacedSample.withChanging false).toJson.compact).bind ofJson? =
        some (spacedSample.withChanging false) ∧
      spacedSample.cacheKey ≠ "g:h:1-SNAPSHOT" := by
  have h : parse " g g.h: n : 1-SNAPSHOT " = .ok spacedSample := by rfl
  have h' : parse "g:h:1-SNAPSHOT" = .ok ⟨"g", "h", .exact "1-SNAPSHOT", true⟩ := by rfl
  obtain ⟨htext, hjson, hkey⟩ := reads_back _ _ h
  refine ⟨h, htext, (hjson false).1, fun hsame => ?_⟩
  exact absurd ((hkey _ _ h').1 hsame).1 (by decide)

end Coordinate

end ModuleRig
