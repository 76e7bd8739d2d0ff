import SqlTypes.Proofs.PlainJson

/-!
# Limits survive JSON

With a codec that keeps to its documentation, reading undoes writing for all limits of 64 bits, and
an object that lists some of the limits gives the listed ones and the defaults of the others, in
whatever order it lists them and however it is laid out (`Limits.ofJson?_complete`).
-/

namespace SqlTypes

open Json

namespace Limits

variable {codec : JsonCodec} {l : Limits} {ms : Record} {text : String}

theorem declared_record (hd : l.maxNestingDepth < UInt64.size)
    (hl : l.maxInputLength < UInt64.size) : l.record.Declared where
  nodup := by simp [record, depthKey, lengthKey]
  named := by
    have hdepth : depthKey.toList.all isNamePart = true := rfl
    have hlength : lengthKey.toList.all isNamePart = true := rfl
    simpa [record] using And.intro (List.all_eq_true.1 hdepth) (List.all_eq_true.1 hlength)
  lt := by simp [record, hd, hl]

theorem lists_record (l' : Limits) (hd : l.maxNestingDepth < UInt64.size)
    (hl : l.maxInputLength < UInt64.size) : l'.record.Lists l.record where
  nodup := (declared_record hd hl).nodup
  subset := fun _ hname => hname
  lt := (declared_record hd hl).lt

theorem declared_default : ({} : Limits).record.Declared :=
  declared_record (by decide) (by decide)

/-- However an object that lists limits is laid out, they are read as listed. -/
theorem ofJson?_of_isObject (h : codec.Documented) (hms : ({} : Limits).record.Lists ms)
    (ht : IsObject ms text) :
    ofJson? codec text = some
      { maxNestingDepth := (ms.lookup depthKey).getD ({} : Limits).maxNestingDepth
        maxInputLength := (ms.lookup lengthKey).getD ({} : Limits).maxInputLength } := by
  obtain ⟨value, hread, hvalue⟩ := h.read?_listed declared_default hms ht
  have hdepth := hvalue (depthKey, ({} : Limits).maxNestingDepth) (by simp [record])
  have hlength := hvalue (lengthKey, ({} : Limits).maxInputLength) (by simp [record])
  rw [ofJson?, hread, Option.map_some, ofValues, hdepth, hlength]

theorem ofJson?_toJson (h : codec.Documented) (hd : l.maxNestingDepth < UInt64.size)
    (hl : l.maxInputLength < UInt64.size) : ofJson? codec (l.toJson codec) = some l := by
  obtain ⟨ms, hperm, ht⟩ := h.write_isObject (declared_record hd hl)
  have hms : ({} : Limits).record.Lists ms := (lists_record {} hd hl).perm hperm.symm
  have hdepth : ms.lookup depthKey = some l.maxNestingDepth :=
    (Record.lookup_eq_some_iff hms.nodup).2 (hperm.mem_iff.2 (by simp [record]))
  have hlength : ms.lookup lengthKey = some l.maxInputLength :=
    (Record.lookup_eq_some_iff hms.nodup).2 (hperm.mem_iff.2 (by simp [record]))
  rw [toJson, ofJson?_of_isObject h hms ht, hdepth, hlength]
  rfl

/-- Limits come back as they were written, and every object that lists limits is read, with the
defaults for those that it does not list. -/
theorem ofJson?_complete (codec : JsonCodec) (h : codec.Documented) :
    (∀ l : Limits, l.maxNestingDepth < UInt64.size → l.maxInputLength < UInt64.size →
      ofJson? codec (l.toJson codec) = some l) ∧
    ∀ (ms : Record) (text : String), ({} : Limits).record.Lists ms → IsObject ms text →
      ofJson? codec text = some
        { maxNestingDepth := (ms.lookup depthKey).getD ({} : Limits).maxNestingDepth
          maxInputLength := (ms.lookup lengthKey).getD ({} : Limits).maxInputLength } :=
  ⟨fun _ hd hl => ofJson?_toJson h hd hl, fun _ _ hms ht => ofJson?_of_isObject h hms ht⟩

/-- An escape may stand for the first underscore. -/
theorem spells_escaped : Spells "max\\u005finput_length".toList lengthKey.toList := by
  have hbehind : Spells "input_length".toList "input_length".toList :=
    .self (List.all_eq_true.1 rfl)
  exact .plain rfl (.plain rfl (.plain rfl (.code rfl hbehind)))

/-- The plain codec writes the largest limits as they come back, and reads the largest length from
an object with blanks, an escape and nothing else. -/
theorem ofJson?_complete_largest :
    JsonCodec.plain.Documented ∧
      ({ maxNestingDepth := UInt64.size - 1, maxInputLength := UInt64.size - 1 } : Limits).toJson
          JsonCodec.plain =
        "\x7b\n  \"max_nesting_depth\": 18446744073709551615,\n" ++
          "  \"max_input_length\": 18446744073709551615\n\x7d" ∧
      ofJson? JsonCodec.plain
          (({ maxNestingDepth := UInt64.size - 1, maxInputLength := UInt64.size - 1 } :
            Limits).toJson JsonCodec.plain) =
        some { maxNestingDepth := UInt64.size - 1, maxInputLength := UInt64.size - 1 } ∧
      ofJson? JsonCodec.plain " \x7b \"max\\u005finput_length\":18446744073709551615\x7d\n" =
        some { maxInputLength := UInt64.size - 1 } := by
  have h := ofJson?_complete JsonCodec.plain JsonCodec.plain_documented
  have hlists : ({} : Limits).record.Lists [(lengthKey, UInt64.size - 1)] :=
    ⟨by simp, by simp [record], by decide⟩
  refine ⟨JsonCodec.plain_documented, by decide +kernel, h.1 _ (by decide) (by decide),
    h.2 [(lengthKey, UInt64.size - 1)] _ hlists ?_⟩
  have hblank : ∀ c ∈ [' '], isSpace c = true := by simp [isSpace]
  have hend : ∀ c ∈ ['\n'], isSpace c = true := by simp [isSpace]
  refine ⟨[("max\\u005finput_length".toList, UInt64.size - 1)],
    .cons ⟨spells_escaped, rfl⟩ .nil, ?_⟩
  exact .cons hblank (.cons hblank (.next (.next (.next (.nil hend)))))

end Limits

end SqlTypes
