import TaskNetwork.Json.Document
import TaskNetwork.Proofs.Except
import TaskNetwork.Proofs.Json.Extension

/-!
# Reading what was written

The reader of a shape takes the tokens of a value that extends a canonical one off the front of a
document, and gives the canonical value. So the document of a value is read back as the value, and
so is any document that extends it.
-/

namespace TaskNetwork.Json

namespace Reader

/-- A reader that takes the tokens of the first value off the front of any others and gives the
second value. -/
def Reads (read : ValueReader) (j' j : Json) : Prop :=
  ∀ rest, read (j'.tokensOf ++ rest) = .ok (j, rest)

variable {read : ValueReader} {room : Nat} {j' j : Json}

/-! ## Lists -/

theorem moreItems_eq {items' items : List Json} (hlength : items.length = items'.length)
    (h : ∀ p ∈ items'.zip items, Reads read p.1 p.2) {bound : Nat} (hbound : items'.length ≤ bound)
    (rest : List Token) :
    moreItems read bound (moreItemsTokens items' ++ rest) = .ok (items, rest) := by
  induction items' generalizing items bound with
  | nil =>
      obtain rfl := List.eq_nil_of_length_eq_zero hlength
      cases bound <;> rfl
  | cons item' items' ih =>
      cases items with
      | nil => cases hlength
      | cons item items =>
          obtain ⟨n, rfl⟩ :=
            Nat.exists_eq_add_of_le' (Nat.le_trans (Nat.le_add_left 1 _) hbound)
          have hitem : Reads read item' item := h _ List.mem_cons_self
          have hrest := ih (Nat.succ.inj hlength) (fun p hp => h p (List.mem_cons_of_mem _ hp))
            (Nat.le_of_succ_le_succ hbound)
          rw [moreItemsTokens, List.cons_append, List.append_assoc, moreItems, hitem]
          show (moreItems read n (moreItemsTokens items' ++ rest) >>= fun x =>
            pure (item :: x.1, x.2)) = _
          rw [hrest]
          rfl

theorem items_tokensOf (j : Json) (ts : List Token) :
    items read (j.tokensOf ++ ts) = (do
      let (item, rest) ← read (j.tokensOf ++ ts)
      let (items, rest) ← moreItems read (j.tokensOf ++ ts).length rest
      return (item :: items, rest)) := by
  cases j <;> rfl

theorem length_le_length_moreItemsTokens (items : List Json) :
    items.length ≤ (moreItemsTokens items).length := by
  induction items with
  | nil => exact Nat.zero_le _
  | cons item items ih =>
      rw [moreItemsTokens, List.length_cons, List.length_cons, List.length_append]
      omega

theorem items_eq {items' items : List Json} (hlength : items.length = items'.length)
    (h : ∀ p ∈ items'.zip items, Reads read p.1 p.2) (rest : List Token) :
    Reader.items read (itemsTokens items' ++ rest) = .ok (items, rest) := by
  cases items' with
  | nil =>
      obtain rfl := List.eq_nil_of_length_eq_zero hlength
      rfl
  | cons item' items' =>
      cases items with
      | nil => cases hlength
      | cons item items =>
          have hitem : Reads read item' item := h _ List.mem_cons_self
          have hbound := length_le_length_moreItemsTokens items'
          rw [itemsTokens, List.append_assoc, items_tokensOf, hitem]
          show (moreItems read _ (moreItemsTokens items' ++ rest) >>= fun x =>
            pure (item :: x.1, x.2)) = _
          rw [moreItems_eq (Nat.succ.inj hlength) fun p hp => h p (List.mem_cons_of_mem _ hp)]
          · rfl
          · simp only [List.length_append]
            omega

/-! ## Values that are passed over -/

/-- What is left to pass over behind a value. -/
def passBehind : List Bracket → List Token → Except Failure (List Token)
  | [], ts => .ok ts
  | b :: stack, ts => passRest (b :: stack) .next ts

/-- A value that is passed over inside any brackets, whatever comes behind it. -/
def IsPassed (j : Json) : Prop :=
  ∀ stack rest, passRest stack .value (j.tokensOf ++ rest) = passBehind stack rest

section

variable {stack : List Bracket} {items : List Json} {members : List (String × Json)}

theorem passRest_moreItems (h : ∀ item ∈ items, IsPassed item) (rest : List Token) :
    passRest (.square :: stack) .next (moreItemsTokens items ++ rest) = passBehind stack rest := by
  induction items with
  | nil => cases stack <;> rfl
  | cons item items ih =>
      rw [moreItemsTokens, List.cons_append, List.append_assoc]
      refine (h item List.mem_cons_self _ _).trans ?_
      exact ih fun i hi => h i (List.mem_cons_of_mem _ hi)

theorem passRest_items (h : ∀ item ∈ items, IsPassed item) (rest : List Token) :
    passRest (.square :: stack) .firstItem (itemsTokens items ++ rest) = passBehind stack rest := by
  cases items with
  | nil => cases stack <;> rfl
  | cons item items =>
      -- No value starts with the bracket that would close an empty list.
      have hfirst (ts : List Token) :
          passRest (.square :: stack) .firstItem (item.tokensOf ++ ts) =
            passRest (.square :: stack) .value (item.tokensOf ++ ts) := by
        cases item <;> rfl
      rw [itemsTokens, List.append_assoc, hfirst]
      refine (h item List.mem_cons_self _ _).trans ?_
      exact passRest_moreItems (fun i hi => h i (List.mem_cons_of_mem _ hi)) rest

theorem passRest_moreMembers (h : ∀ m ∈ members, IsPassed m.2) (rest : List Token) :
    passRest (.curly :: stack) .next (moreMembersTokens members ++ rest) =
      passBehind stack rest := by
  induction members with
  | nil => cases stack <;> rfl
  | cons m members ih =>
      rw [moreMembersTokens, List.cons_append, List.cons_append, List.cons_append,
        List.append_assoc]
      refine (h m List.mem_cons_self _ _).trans ?_
      exact ih fun m' hm' => h m' (List.mem_cons_of_mem _ hm')

theorem passRest_members (h : ∀ m ∈ members, IsPassed m.2) (rest : List Token) :
    passRest (.curly :: stack) .firstKey (membersTokens members ++ rest) =
      passBehind stack rest := by
  cases members with
  | nil => cases stack <;> rfl
  | cons m members =>
      rw [membersTokens, List.cons_append, List.cons_append, List.append_assoc]
      refine (h m List.mem_cons_self _ _).trans ?_
      exact passRest_moreMembers (fun m' hm' => h m' (List.mem_cons_of_mem _ hm')) rest

end

theorem isPassed (h : Fits room j) : IsPassed j := by
  induction h with
  | null room => exact fun stack rest => by cases stack <;> rfl
  | bool room b => exact fun stack rest => by cases stack <;> rfl
  | number room _ _ => exact fun stack rest => by cases stack <;> rfl
  | text room s => exact fun stack rest => by cases stack <;> rfl
  | list _ ih => exact fun stack rest => passRest_items ih rest
  | object _ ih => exact fun stack rest => passRest_members ih rest

theorem pass_tokensOf (h : Fits room j) (rest : List Token) :
    pass (j.tokensOf ++ rest) = .ok rest := isPassed h [] rest

/-! ## Objects -/

/-- What a choosing does with members in turn, given those read before: it reads some of them, as
the members of the last list, and passes over the others. -/
inductive Takes (choose : Choosing) : (read members' members : List (String × Json)) → Prop where
  | nil (read : List (String × Json)) : Takes choose read [] []
  | pass {read members' members : List (String × Json)} {m : String × Json} {room : Nat} :
      choose read m.1 = .ok none → Fits room m.2 → Takes choose read members' members →
        Takes choose read (m :: members') members
  | take {read members' members : List (String × Json)} {key : String} {j' j : Json}
      {reader : ValueReader} :
      choose read key = .ok (some reader) → Reads reader j' j →
        Takes choose ((key, j) :: read) members' members →
          Takes choose read ((key, j') :: members') ((key, j) :: members)

variable {choose : Choosing} {acc members' members before after : List (String × Json)}
  {m : String × Json}

/-- What is read of the first member, and what is to be read behind it. -/
theorem Takes.head (h : Takes choose acc (m :: members') members) :
    ∃ acc₁ members₁, Takes choose acc₁ members' members₁ ∧
      acc₁.reverse ++ members₁ = acc.reverse ++ members ∧
      ∀ rest, member choose acc (.text (some m.1) :: .colon :: (m.2.tokensOf ++ rest)) =
        .ok (acc₁, rest) := by
  cases h with
  | pass hchoose hfits h =>
      refine ⟨acc, members, h, rfl, fun rest => ?_⟩
      show (choose acc m.1 >>= fun choice => _) = _
      rw [hchoose]
      show (Reader.pass (m.2.tokensOf ++ rest) >>= fun ts => pure (acc, ts)) = _
      rw [pass_tokensOf hfits]
      rfl
  | @take _ _ members key j' j reader hchoose hreads h =>
      refine ⟨(key, j) :: acc, members, h, by simp, fun rest => ?_⟩
      show (choose acc key >>= fun choice => _) = _
      rw [hchoose]
      show (reader (j'.tokensOf ++ rest) >>= fun x => pure ((key, x.1) :: acc, x.2)) = _
      rw [hreads]
      rfl

theorem Takes.append {before' after' : List (String × Json)} (h : Takes choose acc before' before)
    (hafter : Takes choose (before.reverse ++ acc) after' after) :
    Takes choose acc (before' ++ after') (before ++ after) := by
  induction h with
  | nil read => exact hafter
  | pass hchoose hfits _ ih => exact .pass hchoose hfits (ih hafter)
  | take hchoose hreads _ ih =>
      rw [List.reverse_cons, List.append_assoc] at hafter
      exact .take hchoose hreads (ih hafter)

theorem takes_of_zip {reader : ValueReader} (hchoose : ∀ acc k, choose acc k = .ok (some reader))
    (hnames : members'.map (·.1) = members.map (·.1))
    (h : ∀ p ∈ members'.zip members, Reads reader p.1.2 p.2.2) :
    Takes choose acc members' members := by
  induction members' generalizing acc members with
  | nil =>
      obtain rfl := List.map_eq_nil_iff.mp hnames.symm
      exact .nil acc
  | cons m' members' ih =>
      cases members with
      | nil => cases hnames
      | cons m members =>
          obtain ⟨key, j'⟩ := m'
          obtain ⟨key', j⟩ := m
          obtain ⟨hkey, hrest⟩ := List.cons_eq_cons.mp hnames
          obtain rfl : key = key' := hkey
          refine .take (hchoose _ _) (h _ List.mem_cons_self) ?_
          exact ih hrest fun p hp => h p (List.mem_cons_of_mem _ hp)

theorem length_le_length_moreMembersTokens (members : List (String × Json)) :
    members.length ≤ (moreMembersTokens members).length := by
  induction members with
  | nil => exact Nat.zero_le _
  | cons m members ih =>
      rw [moreMembersTokens, List.length_cons, List.length_cons, List.length_cons, List.length_cons,
        List.length_append]
      omega

theorem moreMembers_eq (h : Takes choose acc members' members) {bound : Nat}
    (hbound : members'.length ≤ bound) (rest : List Token) :
    moreMembers choose bound acc (moreMembersTokens members' ++ rest) =
      .ok (acc.reverse ++ members, rest) := by
  induction members' generalizing bound acc members with
  | nil =>
      cases h
      rw [List.append_nil]
      cases bound <;> rfl
  | cons m members' ih =>
      obtain ⟨n, rfl⟩ := Nat.exists_eq_add_of_le' (Nat.le_trans (Nat.le_add_left 1 _) hbound)
      obtain ⟨acc₁, members₁, h, hall, hmember⟩ := h.head
      rw [moreMembersTokens, List.cons_append, List.cons_append, List.cons_append,
        List.append_assoc, moreMembers, hmember]
      show moreMembers choose n acc₁ (moreMembersTokens members' ++ rest) = _
      rw [ih h (Nat.le_of_succ_le_succ hbound), hall]

theorem members_eq (h : Takes choose [] members' members) (rest : List Token) :
    Reader.members choose (membersTokens members' ++ rest) = .ok (members, rest) := by
  cases members' with
  | nil =>
      cases h
      rfl
  | cons m members' =>
      obtain ⟨acc₁, members₁, h, hall, hmember⟩ := h.head
      have hlength := length_le_length_moreMembersTokens members'
      show (member choose [] (.text (some m.1) :: .colon ::
          (m.2.tokensOf ++ moreMembersTokens members' ++ rest)) >>= fun x =>
        moreMembers choose (membersTokens (m :: members') ++ rest).length x.1 x.2) = _
      rw [List.append_assoc, hmember]
      show moreMembers choose _ acc₁ (moreMembersTokens members' ++ rest) = _
      rw [moreMembers_eq h, hall]
      · rfl
      · rw [membersTokens, List.length_append, List.length_cons, List.length_cons,
          List.length_append]
        omega

/-! ## Any value -/

theorem reads_any (h : Fits room j) : Reads (any room) j j := by
  induction h with
  | null room => exact fun rest => by cases room <;> rfl
  | bool room b => exact fun rest => by cases room <;> rfl
  | number room _ _ => exact fun rest => by cases room <;> rfl
  | text room s => exact fun rest => by cases room <;> rfl
  | @list room items _ ih =>
      intro rest
      have hitems : ∀ p ∈ items.zip items, Reads (any room) p.1 p.2 := fun p hp =>
        (mem_zip_self hp).2 ▸ ih p.1 (mem_zip_self hp).1
      show (Reader.items (any room) (itemsTokens items ++ rest) >>= fun x =>
        pure (Json.list x.1, x.2)) = _
      rw [items_eq rfl hitems]
      rfl
  | @object room members _ ih =>
      intro rest
      have hmembers : ∀ p ∈ members.zip members, Reads (any room) p.1.2 p.2.2 := fun p hp =>
        (mem_zip_self hp).2 ▸ ih p.1 (mem_zip_self hp).1
      show (Reader.members _ (membersTokens members ++ rest) >>= fun x =>
        pure (Json.object x.1, x.2)) = _
      rw [members_eq (takes_of_zip (fun _ _ => rfl) rfl hmembers)]
      rfl

/-! ## Shapes -/

theorem reads_option {read : Reader} (h : Reads (read room) j' j) (hne : j' ≠ .null) :
    Reads (option read room) j' j := by
  intro rest
  cases j' with
  | null => exact absurd rfl hne
  | _ => exact h rest

theorem reads_list {read : Reader} {items' items : List Json}
    (hlength : items.length = items'.length)
    (h : ∀ p ∈ items'.zip items, Reads (read room) p.1 p.2) :
    Reads (list read (room + 1)) (.list items') (.list items) := by
  intro rest
  show (Reader.items (read room) (itemsTokens items' ++ rest) >>= fun x =>
    pure (Json.list x.1, x.2)) = _
  rw [items_eq hlength h]
  rfl

theorem reads_map {read : Reader} {entries' : List (String × Json)}
    {entries : OrderedMap String Json} (hnames : entries'.map (·.1) = entries.toList.map (·.1))
    (h : ∀ p ∈ entries'.zip entries.toList, Reads (read room) p.1.2 p.2.2) :
    Reads (map read (room + 1)) (.object entries') (.object entries.toList) := by
  intro rest
  show (Reader.members _ (membersTokens entries' ++ rest) >>= fun x =>
    pure (Schema.mapObject x.1, x.2)) = _
  rw [members_eq (takes_of_zip (fun _ _ => rfl) hnames h)]
  show Except.ok (Schema.mapObject entries.toList, rest) = _
  rw [Schema.mapObject_toList]

/-! ## Records -/

section

variable {fields : List (String × Schema)} {kept added : List (String × Json)}

theorem fieldReaders_eq_map (fields : List (String × Schema)) :
    Schema.fieldReaders fields = fields.map fun f => ⟨f.1, f.2.isOption, f.2.read⟩ := by
  induction fields with
  | nil => rfl
  | cons f fields ih => rw [Schema.fieldReaders, ih, List.map_cons]

theorem find?_fieldReaders (fields : List (String × Schema)) (name : String) :
    ((Schema.fieldReaders fields).find? fun f => f.name == name) =
      (fields.lookup name).map fun s => ⟨name, s.isOption, s.read⟩ := by
  induction fields with
  | nil => rfl
  | cons f fields ih =>
      obtain ⟨name', s⟩ := f
      rw [Schema.fieldReaders, List.find?_cons, List.lookup_cons, ih]
      by_cases h : name' = name
      · simp [h]
      · simp [beq_eq_false_iff_ne.mpr h, beq_eq_false_iff_ne.mpr (Ne.symm h)]

/-- The members that a record knows, with their canonical values, in the order of the document. -/
def knownOf (members members' : List (String × Json)) : List (String × Json) :=
  members'.filterMap fun m' => (members.lookup m'.1).map fun j => (m'.1, j)

/-- A member that is no field, or whose field reads it as the canonical member of its name. -/
def IsReadBy (fields : List (String × Schema)) (room : Nat) (members : List (String × Json))
    (m' : String × Json) : Prop :=
  (fields.lookup m'.1 = none ∧ members.lookup m'.1 = none) ∨
    ∃ s j, fields.lookup m'.1 = some s ∧ members.lookup m'.1 = some j ∧
      Reads (s.read room) m'.2 j

/-- A record reads the members that it knows, each by the reader of its field, and passes over the
others. -/
theorem takes_fields (h : ∀ m' ∈ members', IsReadBy fields room members m')
    (hfits : ∀ m' ∈ members', Fits room m'.2)
    (hn : ((acc ++ knownOf members members').map (·.1)).Nodup) :
    Takes (chooseField (Schema.fieldReaders fields) room) acc members'
      (knownOf members members') := by
  -- The names of what has been read and of what is still known to come stay apart, so that no field
  -- is read twice.
  induction members' generalizing acc with
  | nil => exact .nil acc
  | cons m' members' ih =>
      have ih {acc} := @ih acc (fun m hm => h m (List.mem_cons_of_mem _ hm))
        (fun m hm => hfits m (List.mem_cons_of_mem _ hm))
      rcases h m' List.mem_cons_self with ⟨hfield, hmember⟩ | ⟨s, j, hfield, hmember, hreads⟩
      · have hknown : knownOf members (m' :: members') = knownOf members members' :=
          List.filterMap_cons_none (by rw [hmember]; rfl)
        rw [hknown] at hn ⊢
        refine .pass ?_ (hfits m' List.mem_cons_self) (ih hn)
        simp only [chooseField, find?_fieldReaders, hfield]
        rfl
      · have hknown : knownOf members (m' :: members') =
            (m'.1, j) :: knownOf members members' :=
          List.filterMap_cons_some (by rw [hmember]; rfl)
        rw [hknown] at hn ⊢
        rw [List.map_append, List.map_cons, List.nodup_middle, ← List.map_append] at hn
        refine .take ?_ hreads (ih hn)
        have hfresh : (acc.any fun m => m.1 == m'.1) = false := by
          refine List.any_eq_false.mpr fun m hm heq => (List.nodup_cons.mp hn).1 ?_
          exact List.mem_map.mpr ⟨m, List.mem_append_left _ hm, eq_of_beq heq⟩
        simp only [chooseField, find?_fieldReaders, hfield, Option.map_some, hfresh]
        rfl

theorem gather_fields {taken : List (String × Json)}
    (hnames : members.map (·.1) = fields.map (·.1))
    (h : ∀ m ∈ members, taken.lookup m.1 = some m.2) :
    gather (Schema.fieldReaders fields) taken = .ok members := by
  rw [gather, fieldReaders_eq_map, List.mapM_map]
  refine mapM_eq_pure_of_zip (by simpa using congrArg List.length hnames) fun p hp => ?_
  simp only [Function.comp_apply, fst_eq_of_mem_zip hnames hp, h p.2 (List.of_mem_zip hp).2]
  rfl

theorem knownOf_self (hn : (members.map (·.1)).Nodup) : knownOf members members = members := by
  have hall : ∀ m ∈ members, ((members.lookup m.1).map fun j => (m.1, j)) = some m := by
    intro m hm
    rw [OrderedMap.lookup_eq_some_of_mem hn hm]
    rfl
  rw [knownOf, List.filterMap_congr hall, List.filterMap_some]

/-- Of extended members a record knows those that are kept, once each. -/
theorem knownOf_perm (hn : (members.map (·.1)).Nodup)
    (hkept : kept.map (·.1) = members.map (·.1)) (hadded : ∀ m ∈ added, m.1 ∉ members.map (·.1))
    (hperm : members'.Perm (kept ++ added)) : (knownOf members members').Perm members := by
  -- Which members are known depends on their names only.
  have hnames (ms : List (String × Json)) : knownOf members ms =
      (ms.map (·.1)).filterMap fun name => (members.lookup name).map fun j => (name, j) := by
    rw [List.filterMap_map]
    rfl
  have hnone : knownOf members added = [] := by
    refine List.filterMap_eq_nil_iff.mpr fun m hm => ?_
    rw [lookup_eq_none (hadded m hm)]
    rfl
  have hknown : knownOf members (kept ++ added) = members := by
    rw [knownOf, List.filterMap_append, ← knownOf, ← knownOf, hnone, hnames, hkept, ← hnames,
      knownOf_self hn, List.append_nil]
  have hknown' : (knownOf members members').Perm (knownOf members (kept ++ added)) :=
    hperm.filterMap _
  rwa [hknown] at hknown'

theorem reads_record (hn : (fields.map (·.1)).Nodup)
    (hnames : members.map (·.1) = fields.map (·.1))
    (hkept : kept.map (·.1) = members.map (·.1))
    (h : ∀ name s j' j, (name, s) ∈ fields → (name, j') ∈ kept → (name, j) ∈ members →
      Reads (s.read room) j' j)
    (hadded : ∀ m ∈ added, m.1 ∉ fields.map (·.1)) (hperm : members'.Perm (kept ++ added))
    (hfits : ∀ m ∈ members', Fits room m.2) :
    Reads (record (Schema.fieldReaders fields) (room + 1)) (.object members')
      (.object members) := by
  have hknown := knownOf_perm (hnames ▸ hn) hkept (hnames ▸ hadded) hperm
  have hknown_nodup : ((knownOf members members').map (·.1)).Nodup :=
    (hknown.map _).nodup_iff.mpr (hnames ▸ hn)
  have hfields : ∀ m' ∈ members', IsReadBy fields room members m' := by
    intro m' hm'
    rcases List.mem_append.mp (hperm.mem_iff.mp hm') with hm' | hm'
    · obtain ⟨⟨name, j⟩, hj, hname⟩ : ∃ m ∈ members, m.1 = m'.1 :=
        List.mem_map.mp (hkept ▸ List.mem_map_of_mem hm')
      obtain ⟨⟨name', s⟩, hs, rfl⟩ : ∃ f ∈ fields, f.1 = name :=
        List.mem_map.mp (hnames ▸ List.mem_map_of_mem hj)
      obtain rfl : name' = m'.1 := hname
      exact .inr ⟨s, j, OrderedMap.lookup_eq_some_of_mem hn hs,
        OrderedMap.lookup_eq_some_of_mem (hnames ▸ hn) hj, h _ s m'.2 j hs hm' hj⟩
    · exact .inl ⟨lookup_eq_none (hadded m' hm'), lookup_eq_none (hnames ▸ hadded m' hm')⟩
  have htakes : Takes (chooseField (Schema.fieldReaders fields) room) [] members'
      (knownOf members members') := takes_fields hfields hfits hknown_nodup
  intro rest
  show (Reader.members _ (membersTokens members' ++ rest) >>= fun x =>
    gather (Schema.fieldReaders fields) x.1 >>= fun fields => pure (Json.object fields, x.2)) = _
  rw [members_eq htakes]
  show (gather (Schema.fieldReaders fields) (knownOf members members') >>= fun fields =>
    pure (Json.object fields, rest)) = _
  rw [gather_fields hnames fun m hm =>
    OrderedMap.lookup_eq_some_of_mem hknown_nodup (hknown.mem_iff.mpr hm)]
  rfl

end

section

variable {tag name : String} {variants wrapped : List (String × Schema)} {plain : List String}
  {s : Schema}

theorem contains_names (h : variants.lookup name = some s) :
    ((Schema.variantDecoders variants).map (·.1)).contains name = true := by
  have hmem := OrderedMap.mem_of_lookup_eq_some h
  rw [Schema.variantDecoders_eq_map, List.map_map, List.contains_iff_mem]
  exact List.mem_map.mpr ⟨(name, s), hmem, rfl⟩

theorem takes_untagged {names : List String} (htag : ∀ m ∈ members, m.1 ≠ tag)
    (h : ∀ m ∈ members, Fits room m.2) : Takes (chooseTag tag names room) acc members members := by
  induction members generalizing acc with
  | nil => exact .nil acc
  | cons m members ih =>
      have hne : (m.1 == tag) = false := beq_false_of_ne (htag m List.mem_cons_self)
      refine .take (by simp [chooseTag, hne]) (reads_any (h m List.mem_cons_self)) ?_
      exact ih (fun m hm => htag m (List.mem_cons_of_mem _ hm)) fun m hm =>
        h m (List.mem_cons_of_mem _ hm)

/-- The tag is read as a name wherever it stands, and all else as it is. -/
theorem takes_tagged {names : List String} (hname : names.contains name = true)
    (htag : ∀ m ∈ before ++ after, m.1 ≠ tag)
    (h : ∀ m ∈ before ++ (tag, .text name) :: after, Fits room m.2) :
    Takes (chooseTag tag names room) [] (before ++ (tag, .text name) :: after)
      (before ++ (tag, .text name) :: after) := by
  obtain ⟨hbefore, hafter⟩ := List.forall_mem_append.mp htag
  obtain ⟨hfits, hfits'⟩ := List.forall_mem_append.mp h
  have hfresh : (before.reverse ++ []).any (fun m => m.1 == tag) = false := by
    simpa using hbefore
  have hreads : Reads (variantName names) (.text name) (.text name) := by
    intro rest
    show (if names.contains name then Except.ok (Json.text name, rest)
      else .error Failure.mismatch) = _
    rw [if_pos hname]
  refine (takes_untagged hbefore hfits).append (.take ?_ hreads ?_)
  · simp only [chooseTag, beq_self_eq_true, if_true, hfresh]
    rfl
  · exact takes_untagged hafter fun m hm => hfits' m (List.mem_cons_of_mem _ hm)

theorem reads_tagged
    (hdecode : Schema.decodeTagged tag (Schema.variantDecoders variants)
      (.object (before ++ (tag, .text name) :: after)) = some j)
    (hvariant : variants.lookup name = some s) (htag : ∀ m ∈ before ++ after, m.1 ≠ tag)
    (h : ∀ m ∈ before ++ (tag, .text name) :: after, Fits room m.2) :
    Reads (tagged tag (Schema.variantDecoders variants) (room + 1))
      (.object (before ++ (tag, .text name) :: after)) j := by
  intro rest
  have hmembers := members_eq (takes_tagged (contains_names hvariant) htag h) rest
  refine bind_eq_ok.mpr ⟨_, hmembers, ?_⟩
  simp only [hdecode]

theorem reads_choice_plain {wrapped : List (String × Reader)} (h : plain.contains name = true) :
    Reads (choice plain wrapped room) (.text name) (.text name) := by
  intro rest
  show choice plain wrapped room (.text (some name) :: rest) = _
  rw [choice, if_pos h]

theorem variantReaders_eq_map (variants : List (String × Schema)) :
    Schema.variantReaders variants = variants.map fun v => (v.1, v.2.read) := by
  induction variants with
  | nil => rfl
  | cons v variants ih => rw [Schema.variantReaders, ih, List.map_cons]

theorem reads_choice_wrapped (hplain : plain.contains name = false)
    (hvariant : wrapped.lookup name = some s) (h : Reads (s.read room) j' j) :
    Reads (choice plain (Schema.variantReaders wrapped) (room + 1)) (.object [(name, j')])
      (.object [(name, j)]) := by
  intro rest
  have hcontent : choiceContent plain (Schema.variantReaders wrapped) room name
      (.colon :: (j'.tokensOf ++ .closing .curly :: rest)) =
        .ok (.object [(name, j)], .closing .curly :: rest) := by
    rw [choiceContent, variantReaders_eq_map, lookup_map, hvariant,
      if_neg (Bool.eq_false_iff.mp hplain)]
    show (s.read room (j'.tokensOf ++ .closing .curly :: rest) >>= fun x =>
      pure (Json.object [(name, x.1)], x.2)) = _
    rw [h]
    rfl
  have htokens : (Json.object [(name, j')]).tokensOf ++ rest =
      .opening .curly :: .text (some name) :: .colon ::
        (j'.tokensOf ++ .closing .curly :: rest) := by
    rw [tokensOf, membersTokens, moreMembersTokens]
    simp
  rw [htokens]
  show (choiceContent plain (Schema.variantReaders wrapped) room name
    (.colon :: (j'.tokensOf ++ .closing .curly :: rest)) >>= fun x =>
      endSingle x.2 >>= fun ts => pure (x.1, ts)) = _
  rw [hcontent]
  rfl

end

end Reader

/-- The reader of a shape reads what extends a canonical value as the canonical value. -/
theorem Schema.Extends.reads {s : Schema} {j' j : Json} (h : s.Extends j' j) (hholds : s.Holds j)
    {room : Nat} (hfits : Fits room j') : Reader.Reads (s.read room) j' j := by
  induction h generalizing room with
  | text j =>
      cases hholds
      exact fun rest => rfl
  | word bits j =>
      cases hholds with
      | @word bits n hn _ =>
          intro rest
          show (if isWord bits (.integer n) then Except.ok (ofNat n, rest)
            else .error Failure.mismatch) = _
          rw [if_pos (isWord_of_lt hn)]
  | bool j =>
      cases hholds
      exact fun rest => rfl
  | null s => exact fun rest => rfl
  | @some s j' j h ih =>
      cases hholds with
      | null =>
          obtain rfl := h.eq_null_iff.mpr rfl
          exact fun rest => rfl
      | some hs hne =>
          exact Reader.reads_option (ih hs hfits) fun heq => hne (h.eq_null_iff.mp heq)
  | list hlength _ ih =>
      cases hholds with
      | list hitems =>
          cases hfits with
          | list hfits =>
              refine Reader.reads_list hlength fun p hp => ?_
              obtain ⟨hitem', hitem⟩ := List.of_mem_zip hp
              exact ih p hp (hitems _ hitem) (hfits _ hitem')
  | map hnames _ ih =>
      cases hholds with
      | map hentries =>
          cases hfits with
          | object hfits =>
              refine Reader.reads_map hnames fun p hp => ?_
              obtain ⟨hentry', hentry⟩ := List.of_mem_zip hp
              exact ih p hp (hentries _ hentry) (hfits _ hentry')
  | record hkept _ hadded hperm ih =>
      cases hholds with
      | record hn hnames hmembers =>
          cases hfits with
          | object hfits =>
              refine Reader.reads_record hn hnames hkept (fun name s j' j hs hj' hj => ?_) hadded
                hperm hfits
              refine ih name s j' j hs hj' hj (hmembers _ (mem_zip_of_mem hn hnames hs hj)) ?_
              exact hfits _ (hperm.mem_iff.mpr (List.mem_append_left _ hj'))
  | tagged hvariant htag hcontent _ =>
      -- The members are read as they stand and decoded only then: the variant has no reader.
      have hdecode := (Extends.tagged hvariant htag hcontent).decode hholds
      cases hfits with
      | object hfits => exact Reader.reads_tagged hdecode hvariant htag hfits
  | plain plain wrapped name =>
      cases hholds with
      | plain hname => exact Reader.reads_choice_plain hname
  | wrapped plain hvariant _ ih =>
      cases hholds with
      | wrapped hname hvariant' hcontent =>
          obtain rfl := Option.some.inj (hvariant.symm.trans hvariant')
          cases hfits with
          | object hfits =>
              exact Reader.reads_choice_wrapped hname hvariant
                (ih hcontent (hfits _ List.mem_cons_self))

/-! ## Documents -/

/-- A type whose documents give its values back: they have the shape of the type, which does not
nest too deep, and the way back from a canonical value is right. -/
class LawfulDocument (α : Type) [Document α] : Prop where
  holds (a : α) : (Document.schema α).Holds (toJson a)
  nesting_le : (Document.schema α).nesting ≤ Schema.maxNesting
  ofJson?_toJson (a : α) : ofJson? (toJson a) = some a

namespace Document

variable {α : Type} [Document α] [LawfulDocument α]

/-- A document that extends the one of a value is read as the value. -/
theorem parse_render {a : α} {j : Json} (h : (Document.schema α).Extends j (toJson a))
    (hfits : Fits Schema.maxNesting j) : Document.parse α j.render.toUTF8 = .ok a := by
  have htokens : tokens j.render.toUTF8.data.toList = j.tokensOf ++ [] := by
    have hscanned := hfits.isScanned (show IsBoundary [] from trivial)
    rw [List.append_nil, tokens] at hscanned
    rw [toList_toUTF8_render, hscanned]
  have hread : (Document.schema α).readDocument j.render.toUTF8 = .ok (toJson a) := by
    rw [Schema.readDocument, htokens, h.reads (LawfulDocument.holds a) hfits]
    rfl
  refine bind_eq_ok.mpr ⟨toJson a, hread, ?_⟩
  simp only [LawfulDocument.ofJson?_toJson]
  rfl

/-- The document of a value is read as the value. -/
theorem parse_bytes (a : α) : Document.parse α (Document.bytes a) = .ok a := by
  have hholds := LawfulDocument.holds a
  exact parse_render hholds.extends_self (hholds.fits.mono LawfulDocument.nesting_le)

/-- Different values have different documents. -/
theorem bytes_injective : Function.Injective (Document.bytes (α := α)) := by
  intro a b h
  have hparse := parse_bytes a
  rw [h, parse_bytes] at hparse
  exact (Except.ok.inj hparse).symm

end Document

end TaskNetwork.Json
