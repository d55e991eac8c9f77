import TaskNetwork.Proofs.Json.Shapes

/-!
# Extended values

A canonical value is extended by new members in its records, under names that the record does not
know, and the members of a record may change places. The records inside lists, maps, variants and
other records may be extended too. An extended value still has the canonical one as its canonical
form.
-/

namespace TaskNetwork.Json

namespace Schema

variable {s : Schema} {j j' : Json}

/-- The first value extends the second one, which is canonical. -/
inductive Extends : Schema → Json → Json → Prop where
  | text (j : Json) : Extends .text j j
  | word (bits : Nat) (j : Json) : Extends (.word bits) j j
  | bool (j : Json) : Extends .bool j j
  | null (s : Schema) : Extends (.option s) .null .null
  | some {s : Schema} {j' j : Json} : Extends s j' j → Extends (.option s) j' j
  | list {s : Schema} {items' items : List Json} :
      items.length = items'.length → (∀ p ∈ items'.zip items, Extends s p.1 p.2) →
        Extends (.list s) (.list items') (.list items)
  /-- The keys of a map are no fields: there are the same ones, in their order. -/
  | map {s : Schema} {entries' entries : List (String × Json)} :
      entries'.map (·.1) = entries.map (·.1) →
        (∀ p ∈ entries'.zip entries, Extends s p.1.2 p.2.2) →
          Extends (.map s) (.object entries') (.object entries)
  /-- The members are kept, and others are added, in any order. -/
  | record {fields : List (String × Schema)} {members' kept added members : List (String × Json)} :
      kept.map (·.1) = members.map (·.1) →
        (∀ name s j' j, (name, s) ∈ fields → (name, j') ∈ kept → (name, j) ∈ members →
          Extends s j' j) →
        (∀ m ∈ added, m.1 ∉ fields.map (·.1)) → members'.Perm (kept ++ added) →
          Extends (.record fields) (.object members') (.object members)
  /-- The tag may stand anywhere among the members of the variant, of which none has its name. -/
  | tagged {tag name : String} {variants : List (String × Schema)} {s : Schema}
      {before after members : List (String × Json)} :
      variants.lookup name = Option.some s → (∀ m ∈ before ++ after, m.1 ≠ tag) →
        Extends s (.object (before ++ after)) (.object members) →
          Extends (.tagged tag variants) (.object (before ++ (tag, .text name) :: after))
            (.object ((tag, .text name) :: members))
  | plain (plain : List String) (wrapped : List (String × Schema)) (name : String) :
      Extends (.choice plain wrapped) (.text name) (.text name)
  | wrapped (plain : List String) {wrapped : List (String × Schema)} {name : String} {s : Schema}
      {j' j : Json} : wrapped.lookup name = Option.some s → Extends s j' j →
        Extends (.choice plain wrapped) (.object [(name, j')]) (.object [(name, j)])

theorem Extends.eq_null_iff (h : s.Extends j' j) : j' = .null ↔ j = .null := by
  induction h with
  | text j => rfl
  | word bits j => rfl
  | bool j => rfl
  | null s => rfl
  | some _ ih => exact ih
  | plain => rfl
  | _ => exact iff_of_false nofun nofun

/-! ## Members by their names -/

section

variable {fields : List (String × Schema)} {members' kept added members : List (String × Json)}
  {name : String}

theorem eq_of_mem_of_nodup {α : Type} {es : List (String × α)} (hn : (es.map (·.1)).Nodup)
    {a b : α} (ha : (name, a) ∈ es) (hb : (name, b) ∈ es) : a = b :=
  congrArg Prod.snd (List.inj_on_of_nodup_map hn ha hb rfl)

theorem mem_zip_of_mem (hn : (fields.map (·.1)).Nodup)
    (hnames : members.map (·.1) = fields.map (·.1)) (hs : (name, s) ∈ fields)
    (hj : (name, j) ∈ members) : ((name, s), (name, j)) ∈ fields.zip members := by
  obtain ⟨before, after, rfl⟩ := List.append_of_mem hj
  obtain ⟨_, f, _, rfl, -, hf, hzip⟩ := exists_field hnames
  obtain rfl : f = (name, s) := List.inj_on_of_nodup_map hn (by simp) hs hf
  exact hzip

theorem membersNamed_eq_nil (h : ∀ m ∈ members, m.1 ≠ name) : membersNamed name members = [] := by
  rw [membersNamed, List.filter_eq_nil_iff.mpr fun m hm => by simpa using h m hm, List.map_nil]

theorem membersNamed_append :
    membersNamed name (members ++ members') =
      membersNamed name members ++ membersNamed name members' := by
  rw [membersNamed, List.filter_append, List.map_append]
  rfl

theorem membersNamed_middle {before after : List (String × Json)}
    (h : ∀ m ∈ before ++ after, m.1 ≠ name) :
    membersNamed name (before ++ (name, j) :: after) = [j] := by
  obtain ⟨hbefore, hafter⟩ := List.forall_mem_append.mp h
  have hself : membersNamed name ((name, j) :: after) = j :: membersNamed name after := by
    simp [membersNamed]
  rw [membersNamed_append, hself, membersNamed_eq_nil hbefore, membersNamed_eq_nil hafter]
  rfl

theorem membersNamed_of_mem (hn : (members.map (·.1)).Nodup) (hm : (name, j) ∈ members) :
    membersNamed name members = [j] := by
  obtain ⟨before, after, rfl⟩ := List.append_of_mem hm
  rw [List.map_append, List.map_cons, List.nodup_middle, List.nodup_cons, ← List.map_append] at hn
  exact membersNamed_middle fun m hm heq => hn.1 (List.mem_map.mpr ⟨m, hm, heq⟩)

/-- A member that is kept is the only one of its name. -/
theorem membersNamed_of_perm (hperm : members'.Perm (kept ++ added))
    (hn : (kept.map (·.1)).Nodup) (hadded : ∀ m ∈ added, m.1 ≠ name) (hm : (name, j) ∈ kept) :
    membersNamed name members' = [j] := by
  have hnamed : (membersNamed name members').Perm (membersNamed name (kept ++ added)) :=
    (hperm.filter _).map _
  rw [membersNamed_append, membersNamed_of_mem hn hm, membersNamed_eq_nil hadded] at hnamed
  exact List.perm_singleton.mp hnamed

end

/-- A canonical value extends itself. -/
theorem Holds.extends_self (h : s.Holds j) : s.Extends j j := by
  induction h with
  | text s => exact .text _
  | word _ _ => exact .word _ _
  | bool b => exact .bool _
  | null s => exact .null s
  | some _ _ ih => exact .some ih
  | list _ ih =>
      refine .list rfl fun p hp => ?_
      obtain ⟨hmem, heq⟩ := mem_zip_self hp
      exact heq ▸ ih p.1 hmem
  | map _ ih =>
      refine .map rfl fun p hp => ?_
      obtain ⟨hmem, heq⟩ := mem_zip_self hp
      exact heq ▸ ih p.1 hmem
  | record hn hnames _ ih =>
      refine .record rfl (fun name s j' j hs hj' hj => ?_) (fun _ hm => absurd hm List.not_mem_nil)
        (List.Perm.of_eq (List.append_nil _).symm)
      obtain rfl := eq_of_mem_of_nodup (hnames ▸ hn) hj' hj
      exact ih _ (mem_zip_of_mem hn hnames hs hj)
  | @tagged tag name variants s members hvariant htag _ ih =>
      exact @Extends.tagged tag name variants s [] members members hvariant htag ih
  | plain _ => exact .plain _ _ _
  | wrapped _ hvariant _ ih => exact .wrapped _ hvariant ih

/-! ## Decoding -/

theorem fieldDecoders_eq_map (fields : List (String × Schema)) :
    fieldDecoders fields = fields.map fun f => ⟨f.1, f.2.isOption, f.2.decode⟩ := by
  induction fields with
  | nil => rfl
  | cons f fields ih => rw [fieldDecoders, ih, List.map_cons]

theorem variantDecoders_eq_map (variants : List (String × Schema)) :
    variantDecoders variants = variants.map fun v => (v.1, v.2.decode) := by
  induction variants with
  | nil => rfl
  | cons v variants ih => rw [variantDecoders, ih, List.map_cons]

theorem mapObject_toList (m : OrderedMap String Json) :
    mapObject m.toList = .object m.toList := by
  rw [mapObject, OrderedMap.ofList_toList]

theorem isWord_of_lt {bits n : Nat} (h : n < 2 ^ bits) : isWord bits (.integer n) = true := by
  simp only [isWord, Bool.and_eq_true, decide_eq_true_iff]
  exact ⟨Int.natCast_nonneg n, by exact_mod_cast h⟩

/-- Of what stands around the tag the variant is decoded. -/
theorem decodeTagged_object {tag name : String} {variants : List (String × Schema)}
    {before after members : List (String × Json)} (hvariant : variants.lookup name = some s)
    (htag : ∀ m ∈ before ++ after, m.1 ≠ tag)
    (hdecode : s.decode (.object (before ++ after)) = some (.object members)) :
    decodeTagged tag (variantDecoders variants) (.object (before ++ (tag, .text name) :: after)) =
      some (.object ((tag, .text name) :: members)) := by
  have hrest : ((before ++ (tag, Json.text name) :: after).filter fun m => !(m.1 == tag)) =
      before ++ after := by
    have hall : ((before ++ after).filter fun m => !(m.1 == tag)) = before ++ after :=
      List.filter_eq_self.mpr fun m hm => by simp [htag m hm]
    rw [List.filter_append, List.filter_cons_of_neg (by simp), ← List.filter_append, hall]
  rw [decodeTagged, membersNamed_middle htag, hrest]
  simp [decodeVariant, variantDecoders_eq_map, lookup_map, hvariant, hdecode, withTag]

/-- The canonical form of an extended value is the value that it extends. -/
theorem Extends.decode (h : s.Extends j' j) (hholds : s.Holds j) :
    s.decode j' = Option.some j := by
  induction h with
  | text j =>
      cases hholds
      rfl
  | word bits j =>
      cases hholds with
      | word hn _ => simp only [Schema.decode, ofNat, isWord_of_lt hn, if_true]
  | bool j =>
      cases hholds
      rfl
  | null s => rfl
  | @some s j' j h ih =>
      cases hholds with
      | null =>
          obtain rfl := h.eq_null_iff.mpr rfl
          rfl
      | some hs hne =>
          -- Only a value other than null is left to the shape inside.
          have hne' : j' ≠ .null := fun heq => hne (h.eq_null_iff.mp heq)
          cases j' with
          | null => exact absurd rfl hne'
          | _ => exact ih hs
  | @list s items' items hlength _ ih =>
      cases hholds with
      | list hitems =>
          have hdecoded : items'.mapM s.decode = Option.some items :=
            mapM_eq_pure_of_zip hlength fun p hp => ih p hp (hitems _ (List.of_mem_zip hp).2)
          rw [Schema.decode, hdecoded]
          rfl
  | @map s entries' entries hnames _ ih =>
      cases hholds with
      | @map s entries hentries =>
          have hdecoded : (entries'.mapM fun m => (s.decode m.2).map fun v => (m.1, v)) =
              Option.some entries.toList := by
            refine mapM_eq_pure_of_zip (by simpa using (congrArg List.length hnames).symm) ?_
            intro p hp
            rw [ih p hp (hentries _ (List.of_mem_zip hp).2), fst_eq_of_mem_zip hnames.symm hp]
            rfl
          rw [Schema.decode, hdecoded]
          exact congrArg Option.some (mapObject_toList entries)
  | @record fields members' kept added members hkept _ hadded hperm ih =>
      cases hholds with
      | record hn hnames hmembers =>
          have hdecoded : fields.mapM (fun f => FieldDecoder.ofMembers members'
              ⟨f.1, f.2.isOption, f.2.decode⟩) = Option.some members := by
            refine mapM_eq_pure_of_zip (by simpa using congrArg List.length hnames) ?_
            rintro ⟨⟨name, s⟩, ⟨name', j⟩⟩ hp
            obtain rfl : name = name' := fst_eq_of_mem_zip hnames hp
            obtain ⟨hs, hj⟩ := List.of_mem_zip hp
            obtain ⟨⟨name', j'⟩, hj', rfl⟩ : ∃ m ∈ kept, m.1 = name :=
              List.mem_map.mp (hkept ▸ List.mem_map_of_mem hj)
            -- Wherever the field has been moved to, nothing else has its name.
            have hnamed : membersNamed name' members' = [j'] :=
              membersNamed_of_perm hperm (hkept ▸ hnames ▸ hn)
                (fun m hm heq => hadded m hm (heq ▸ List.mem_map_of_mem hs)) hj'
            simp only [FieldDecoder.ofMembers, hnamed, ih _ s j' j hs hj' hj (hmembers _ hp)]
            rfl
          rw [Schema.decode, decodeRecord, fieldDecoders_eq_map, List.mapM_map]
          exact congrArg (Option.map Json.object) hdecoded
  | tagged hvariant htag _ ih =>
      cases hholds with
      | tagged hvariant' _ hcontent =>
          obtain rfl := Option.some.inj (hvariant.symm.trans hvariant')
          exact decodeTagged_object hvariant htag (ih hcontent)
  | plain plain wrapped name =>
      cases hholds with
      | plain hname => simp only [Schema.decode, decodeChoice, hname, if_true]
  | wrapped plain hvariant _ ih =>
      cases hholds with
      | wrapped hname hvariant' hcontent =>
          obtain rfl := Option.some.inj (hvariant.symm.trans hvariant')
          simp only [Schema.decode, decodeChoice, hname, variantDecoders_eq_map, lookup_map,
            hvariant]
          simp [ih hcontent]

end Schema

end TaskNetwork.Json
