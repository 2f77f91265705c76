import LanguageHost.Config.Load
import LanguageHost.Proofs.Keyed

/-!
# Values that come from a file

The members of an object stand in the order of their names, and no name stands there twice; this
holds of every value inside of another one, too (`Json.Ordered`).  Both readers put the members of
a table in their places one after the other (`Json.ordered_ofMembers`, `Toml.Table.Ordered.put`), so
whatever they have read is ordered: `ConfigFile.ordered_entries`.
-/

namespace LanguageHost

namespace Json

/-- Whether a value is neither an array nor an object. -/
def isLeaf : Json → Bool
  | arr _ | obj _ => false
  | _ => true

/-- A value in which the members of every object stand in the order of their names. -/
inductive Ordered : Json → Prop where
  | leaf {v : Json} (h : v.isLeaf = true) : Ordered v
  | arr {items : List Json} (h : ∀ v ∈ items, Ordered v) : Ordered (.arr items)
  | obj {members : List (String × Json)} (hsorted : SortedByName members)
      (h : ∀ m ∈ members, Ordered m.2) : Ordered (.obj members)

variable {v : Json} {cs rest : List Char} {d : Nat}

theorem Ordered.sorted {members : List (String × Json)} (h : (Json.obj members).Ordered) :
    SortedByName members := by
  cases h with
  | leaf h => cases h
  | obj hsorted => exact hsorted

theorem Ordered.member {members : List (String × Json)} (h : (Json.obj members).Ordered)
    {m : String × Json} (hm : m ∈ members) : m.2.Ordered := by
  cases h with
  | leaf h => cases h
  | obj _ hmembers => exact hmembers m hm

theorem Ordered.item {items : List Json} (h : (Json.arr items).Ordered) (hv : v ∈ items) :
    v.Ordered := by
  cases h with
  | leaf h => cases h
  | arr hitems => exact hitems v hv

theorem Ordered.get? {members : List (String × Json)} (h : (Json.obj members).Ordered)
    {name : String} (hv : SortedByName.get? name members = some v) : v.Ordered := by
  obtain ⟨m, hm, rfl⟩ := Option.map_eq_some_iff.mp hv
  exact h.member (List.mem_of_find?_eq_some hm)

theorem ordered_ofMembers {members : List (String × Json)} (h : ∀ m ∈ members, m.2.Ordered) :
    (ofMembers members).Ordered := by
  have hall : ∀ (members entries : List (String × Json)), (∀ m ∈ members, m.2.Ordered) →
      SortedByName entries → (∀ m ∈ entries, m.2.Ordered) →
      (obj (members.foldl (fun d e => SortedByName.insert e.1 e.2 d) entries)).Ordered := by
    intro members
    induction members with
    | nil => exact fun entries _ hsorted hentries => .obj hsorted hentries
    | cons m members ih =>
      intro entries hmembers hsorted hentries
      obtain ⟨hm, hrest⟩ := List.forall_mem_cons.mp hmembers
      refine ih _ hrest (SortedByName.sorted_insert m.1 m.2 hsorted) fun e he => ?_
      rcases SortedByName.mem_insert he with rfl | hold
      · exact hm
      · exact hentries e hold
  exact hall members [] h List.Pairwise.nil fun _ hm => by cases hm

theorem mapItems_eq_map (f : Json → Json) (items : List Json) :
    mapItems f items = items.map (mapLeaves f) := by
  induction items with
  | nil => rfl
  | cons v rest ih => rw [mapItems, List.map_cons, ih]

theorem mapMembers_eq_map (f : Json → Json) (members : List (String × Json)) :
    mapMembers f members = members.map fun m => (m.1, m.2.mapLeaves f) := by
  induction members with
  | nil => rfl
  | cons m rest ih => rw [mapMembers, List.map_cons, ih]

theorem mapLeaves_of_isLeaf {f : Json → Json} (h : v.isLeaf = true) : v.mapLeaves f = f v := by
  cases v with
  | arr items => cases h
  | obj members => cases h
  | _ => rfl

/-- Another value in place of each leaf leaves the members in their order. -/
theorem ordered_mapLeaves {f : Json → Json} (hf : ∀ v, v.isLeaf = true → (f v).isLeaf = true)
    (h : v.Ordered) : (v.mapLeaves f).Ordered := by
  induction h with
  | leaf hleaf =>
    rw [mapLeaves_of_isLeaf hleaf]
    exact .leaf (hf _ hleaf)
  | arr _ ih =>
    rw [mapLeaves, mapItems_eq_map]
    refine .arr fun v hv => ?_
    obtain ⟨w, hw, rfl⟩ := List.mem_map.mp hv
    exact ih w hw
  | obj hsorted _ ih =>
    rw [mapLeaves, mapMembers_eq_map]
    refine .obj (hsorted.map fun m => m.2.mapLeaves f) fun m hm => ?_
    obtain ⟨m', hm', rfl⟩ := List.mem_map.mp hm
    exact ih m' hm'

/-! ### Values that the reader of data values finds -/

theorem isLeaf_numeral {n : Numeral} (h : n.value? = some v) : v.isLeaf = true := by
  have hfloat : n.float? = some v → v.isLeaf = true := fun hv => by
    obtain ⟨x, -, rfl⟩ := Option.map_eq_some_iff.mp hv
    rfl
  unfold Numeral.value? at h
  dsimp only at h
  split at h
  · split at h
    · split at h
      · exact Option.some.inj h ▸ rfl
      · exact hfloat h
    · split at h
      · exact Option.some.inj h ▸ rfl
      · exact hfloat h
  · exact hfloat h

theorem isLeaf_scalarValue? (h : scalarValue? cs = some (v, rest)) : v.isLeaf = true := by
  unfold scalarValue? at h
  split at h
  · exact (Prod.mk.inj (Option.some.inj h)).1 ▸ rfl
  · exact (Prod.mk.inj (Option.some.inj h)).1 ▸ rfl
  · exact (Prod.mk.inj (Option.some.inj h)).1 ▸ rfl
  · obtain ⟨s, -, heq⟩ := Option.map_eq_some_iff.mp h
    exact (Prod.mk.inj heq).1 ▸ rfl
  · simp only [Option.bind_eq_bind, Option.bind_eq_some_iff, Option.pure_def,
      Option.some.injEq] at h
    obtain ⟨⟨n, after⟩, -, w, hw, heq⟩ := h
    exact (Prod.mk.inj heq).1 ▸ isLeaf_numeral hw

section Loops

variable {read? : List Char → Option (Json × List Char)}

theorem ordered_items? (hread : ∀ cs v rest, read? cs = some (v, rest) → v.Ordered) (fuel : Nat)
    {items : List Json} (h : items? read? fuel cs = some (items, rest)) :
    ∀ v ∈ items, v.Ordered := by
  induction fuel generalizing cs items rest with
  | zero => cases h
  | succ fuel ih =>
    simp only [items?, Option.bind_eq_bind, Option.bind_eq_some_iff] at h
    obtain ⟨⟨v, after⟩, hv, h⟩ := h
    have hfirst := hread cs v after hv
    dsimp only at h
    split at h
    · simp only [Option.bind_eq_some_iff, Option.pure_def, Option.some.injEq,
        Prod.mk.injEq] at h
      obtain ⟨⟨vs, last⟩, hvs, rfl, -⟩ := h
      exact List.forall_mem_cons.mpr ⟨hfirst, ih hvs⟩
    · obtain ⟨rfl, -⟩ := Prod.mk.inj (Option.some.inj h)
      exact List.forall_mem_singleton.mpr hfirst
    · cases h

theorem ordered_members? (hread : ∀ cs v rest, read? cs = some (v, rest) → v.Ordered) (fuel : Nat)
    {members : List (String × Json)} (h : members? read? fuel cs = some (members, rest)) :
    ∀ m ∈ members, m.2.Ordered := by
  induction fuel generalizing cs members rest with
  | zero => cases h
  | succ fuel ih =>
    unfold members? at h
    split at h
    · simp only [Option.bind_eq_bind, Option.bind_eq_some_iff] at h
      obtain ⟨⟨name, after⟩, -, h⟩ := h
      dsimp only at h
      split at h
      · simp only [Option.bind_eq_some_iff] at h
        obtain ⟨⟨v, later⟩, hv, h⟩ := h
        have hfirst := hread _ v later hv
        dsimp only at h
        split at h
        · simp only [Option.bind_eq_some_iff, Option.pure_def, Option.some.injEq,
            Prod.mk.injEq] at h
          obtain ⟨⟨ms, last⟩, hms, rfl, -⟩ := h
          exact List.forall_mem_cons.mpr ⟨hfirst, ih hms⟩
        · obtain ⟨rfl, -⟩ := Prod.mk.inj (Option.some.inj h)
          exact List.forall_mem_singleton.mpr hfirst
        · cases h
      · cases h
    · cases h

end Loops

theorem ordered_value? (h : value? d cs = some (v, rest)) : v.Ordered := by
  induction d generalizing cs v rest with
  | zero =>
    unfold value? at h
    split at h
    · cases h
    · cases h
    · exact .leaf (isLeaf_scalarValue? h)
  | succ d ih =>
    unfold value? at h
    split at h
    · split at h
      · exact (Prod.mk.inj (Option.some.inj h)).1 ▸ .arr fun _ hv => by cases hv
      · obtain ⟨⟨items, after⟩, hitems, heq⟩ := Option.map_eq_some_iff.mp h
        obtain ⟨rfl, -⟩ := Prod.mk.inj heq
        exact .arr (ordered_items? (fun _ _ _ => ih) _ hitems)
    · split at h
      · exact (Prod.mk.inj (Option.some.inj h)).1 ▸ .obj List.Pairwise.nil fun _ hm => by cases hm
      · obtain ⟨⟨members, after⟩, hmembers, heq⟩ := Option.map_eq_some_iff.mp h
        obtain ⟨rfl, -⟩ := Prod.mk.inj heq
        exact ordered_ofMembers (ordered_members? (fun _ _ _ => ih) _ hmembers)
    · exact .leaf (isLeaf_scalarValue? h)

/-- What is read from a text of a data value is ordered. -/
theorem ordered_read? (h : read? cs = some v) : v.Ordered := by
  simp only [read?, readNested?, Option.bind_eq_bind, Option.bind_eq_some_iff] at h
  obtain ⟨⟨w, rest⟩, hw, h⟩ := h
  dsimp only at h
  split at h
  · exact Option.some.inj h ▸ ordered_value? hw
  · cases h

end Json

/-! ### Values that the reader of documents finds -/

namespace Toml

variable {cs rest : List Char} {v : Json} {path : List String} {key : String} {dotted : Bool}

/-- What stands under a key, with all tables in the order of their names. -/
inductive Node.Ordered : Node → Prop where
  | value {v : Json} (h : v.Ordered) : Node.Ordered (.value v)
  | table {implicit dotted : Bool} {members : List (String × Node)} (hsorted : SortedByName members)
      (h : ∀ m ∈ members, Node.Ordered m.2) : Node.Ordered (.table implicit dotted members)
  | tables {items : List (List (String × Node))}
      (hsorted : ∀ members ∈ items, SortedByName members)
      (h : ∀ members ∈ items, ∀ m ∈ members, Node.Ordered m.2) : Node.Ordered (.tables items)

theorem membersToJson_eq_map (members : List (String × Node)) :
    membersToJson members = members.map fun m => (m.1, m.2.toJson) := by
  induction members with
  | nil => rfl
  | cons m rest ih => rw [membersToJson, List.map_cons, ih]

theorem itemsToJson_eq_map (items : List (List (String × Node))) :
    itemsToJson items = items.map fun members => .obj (membersToJson members) := by
  induction items with
  | nil => rfl
  | cons members rest ih => rw [itemsToJson, List.map_cons, ih]

theorem ordered_membersToJson {members : List (String × Node)} (hsorted : SortedByName members)
    (h : ∀ m ∈ members, m.2.toJson.Ordered) : (Json.obj (membersToJson members)).Ordered := by
  rw [membersToJson_eq_map]
  refine .obj (hsorted.map fun m => m.2.toJson) fun m hm => ?_
  obtain ⟨m', hm', rfl⟩ := List.mem_map.mp hm
  exact h m' hm'

theorem Node.Ordered.toJson {n : Node} (h : n.Ordered) : n.toJson.Ordered := by
  induction h with
  | value h => exact h
  | table hsorted _ ih => exact ordered_membersToJson hsorted ih
  | tables hsorted _ ih =>
    rw [Node.toJson, itemsToJson_eq_map]
    refine .arr fun v hv => ?_
    obtain ⟨members, hmembers, rfl⟩ := List.mem_map.mp hv
    exact ordered_membersToJson (hsorted members hmembers) (ih members hmembers)

namespace Table

variable {t u : Table}

/-- A table in the order of its names, with nothing else in it. -/
structure Ordered (t : Table) : Prop where
  sorted : SortedByName t.members
  members : ∀ m ∈ t.members, m.2.Ordered

theorem ordered_of_no_members (h : t.members = []) : t.Ordered := by
  refine ⟨h ▸ List.Pairwise.nil, fun m hm => ?_⟩
  rw [h] at hm
  cases hm

theorem ordered_empty : empty.Ordered := ordered_of_no_members rfl

namespace Ordered

theorem node (h : t.Ordered) : t.node.Ordered := .table h.sorted h.members

theorem toJson (h : t.Ordered) : t.toJson.Ordered :=
  ordered_membersToJson h.sorted fun m hm => (h.members m hm).toJson

theorem put (h : t.Ordered) {n : Node} (hn : n.Ordered) (key : String) : (t.put key n).Ordered := by
  refine ⟨SortedByName.sorted_insert key n h.sorted, fun m hm => ?_⟩
  rcases SortedByName.mem_insert hm with rfl | hold
  · exact hn
  · exact h.members m hold

theorem get? (h : t.Ordered) {n : Node} (hn : SortedByName.get? key t.members = some n) :
    n.Ordered := by
  obtain ⟨m, hm, rfl⟩ := Option.map_eq_some_iff.mp hn
  exact h.members m (List.mem_of_find?_eq_some hm)

end Ordered

/-- The members of the last table of an array. -/
theorem ordered_of_getLast? {items : List (List (String × Node))} {members : List (String × Node)}
    (h : (Node.tables items).Ordered) (hlast : items.getLast? = some members) :
    ({ empty with members } : Table).Ordered := by
  have hmem := List.mem_of_getLast? hlast
  cases h with
  | tables hsorted hall => exact ⟨hsorted members hmem, hall members hmem⟩

/-- A change of a table at the end of a path leaves everything in order. -/
theorem ordered_change? {f : Table → Option Table}
    (hf : ∀ t u, t.Ordered → f t = some u → u.Ordered) (path : List String) (h : t.Ordered)
    (hchange : change? dotted f path t = some u) : u.Ordered := by
  induction path generalizing t u with
  | nil => exact hf t u h hchange
  | cons key path ih =>
    unfold change? at hchange
    split at hchange
    · obtain ⟨w, hw, rfl⟩ := Option.map_eq_some_iff.mp hchange
      exact h.put (ih (ordered_of_no_members rfl) hw).node key
    · next implicit wasDotted members hget =>
      split at hchange
      · cases hchange
      · obtain ⟨w, hw, rfl⟩ := Option.map_eq_some_iff.mp hchange
        have htable : (Table.mk implicit wasDotted members).Ordered := by
          cases h.get? hget with
          | table hsorted hall => exact ⟨hsorted, hall⟩
        exact h.put (ih htable hw).node key
    · next items hget =>
      have hitems := h.get? hget
      split at hchange
      · cases hchange
      · next members hlast =>
        obtain ⟨w, hw, rfl⟩ := Option.map_eq_some_iff.mp hchange
        have hw' := ih (ordered_of_getLast? hitems hlast) hw
        cases hitems with
        | tables hsorted hall =>
          refine h.put (.tables ?_ ?_) key
          · intro ms hms
            rcases List.mem_append.mp hms with hold | hnew
            · exact hsorted ms (List.dropLast_subset items hold)
            · exact List.mem_singleton.mp hnew ▸ hw'.sorted
          · intro ms hms
            rcases List.mem_append.mp hms with hold | hnew
            · exact hall ms (List.dropLast_subset items hold)
            · exact List.mem_singleton.mp hnew ▸ hw'.members
    · cases hchange

theorem ordered_addValue? (h : t.Ordered) (hv : v.Ordered)
    (hadd : t.addValue? path key v = some u) : u.Ordered := by
  refine ordered_change? (fun t u ht hu => ?_) path h hadd
  split at hu
  · cases hu
  · exact Option.some.inj hu ▸ ht.put (.value hv) key

/-- What stands under a key is in order. -/
theorem ordered_find? {n : Node} (path : List String) (h : t.Ordered)
    (hn : t.find? key path = some n) : n.Ordered := by
  induction path generalizing t with
  | nil => exact h.get? hn
  | cons k path ih =>
    unfold find? at hn
    split at hn
    · next implicit dotted members hget =>
      cases h.get? hget with
      | table hsorted hall => exact ih ⟨hsorted, hall⟩ hn
    · next items hget =>
      obtain ⟨members, hlast, hfound⟩ := Option.bind_eq_some_iff.mp hn
      exact ih (ordered_of_getLast? (h.get? hget) hlast) hfound
    · cases hn

end Table

/-! ### Scalars, arrays and inline tables -/

theorem isLeaf_float? (h : float? cs = some (v, rest)) : v.isLeaf = true := by
  have hbits : ∀ {fraction? : Option (List Char × List Char)}
      {bits : List Char × List Char → Int × List Char → UInt64},
      (fraction?.bind fun fraction => (exponent? fraction.2).bind fun e =>
        if bits fraction e = 0x7FF0000000000000 then none
        else some (Json.float (bits fraction e), e.2)) = some (v, rest) →
      v.isLeaf = true := fun h => by
    obtain ⟨fraction, -, h⟩ := Option.bind_eq_some_iff.mp h
    obtain ⟨e, -, h⟩ := Option.bind_eq_some_iff.mp h
    split at h
    · cases h
    · exact (Prod.mk.inj (Option.some.inj h)).1 ▸ rfl
  simp only [float?, Option.bind_eq_bind, Option.pure_def] at h
  split at h
  · exact (Prod.mk.inj (Option.some.inj h)).1 ▸ rfl
  · exact (Prod.mk.inj (Option.some.inj h)).1 ▸ rfl
  · obtain ⟨whole, -, h⟩ := Option.bind_eq_some_iff.mp h
    split at h
    · exact hbits h
    · exact hbits h
    · exact hbits h
    · cases h

theorem isLeaf_int64? {n : Int} (h : int64? n = some v) : v.isLeaf = true := by
  unfold int64? at h
  split at h
  · exact Option.some.inj h ▸ rfl
  · cases h

theorem isLeaf_integer? (h : integer? cs = some (v, rest)) : v.isLeaf = true := by
  have hbased : ∀ base ds, based? base ds = some (v, rest) → v.isLeaf = true := fun base ds hv => by
    simp only [based?, Option.bind_eq_bind, Option.bind_eq_some_iff, Option.pure_def,
      Option.some.injEq, Prod.mk.injEq] at hv
    obtain ⟨ds, -, w, hw, rfl, -⟩ := hv
    exact isLeaf_int64? hw
  unfold integer? at h
  split at h
  · exact hbased _ _ h
  · exact hbased _ _ h
  · exact hbased _ _ h
  · simp only [Option.bind_eq_bind, Option.bind_eq_some_iff, Option.pure_def,
      Option.some.injEq, Prod.mk.injEq] at h
    obtain ⟨ds, -, w, hw, rfl, -⟩ := h
    exact isLeaf_int64? hw

theorem isLeaf_scalar? (h : scalar? cs = some (v, rest)) : v.isLeaf = true := by
  unfold scalar? at h
  split at h
  · obtain ⟨s, -, heq⟩ := Option.map_eq_some_iff.mp h
    exact (Prod.mk.inj heq).1 ▸ rfl
  · obtain ⟨s, -, heq⟩ := Option.map_eq_some_iff.mp h
    exact (Prod.mk.inj heq).1 ▸ rfl
  · exact (Prod.mk.inj (Option.some.inj h)).1 ▸ rfl
  · exact (Prod.mk.inj (Option.some.inj h)).1 ▸ rfl
  · unfold numeric? at h
    split at h
    · exact (Prod.mk.inj (Option.some.inj h)).1 ▸ rfl
    · cases hfloat : float? cs with
      | some found =>
        rw [hfloat] at h
        exact isLeaf_float? (hfloat.trans h)
      | none =>
        rw [hfloat] at h
        exact isLeaf_integer? h

section Loops

variable {read? : List Char → Option (Json × List Char)}

theorem ordered_items? (hread : ∀ cs v rest, read? cs = some (v, rest) → v.Ordered) (fuel : Nat)
    {items : List Json} (h : items? read? fuel cs = some (items, rest)) :
    ∀ v ∈ items, v.Ordered := by
  induction fuel generalizing cs items rest with
  | zero => cases h
  | succ fuel ih =>
    unfold items? at h
    split at h
    · obtain ⟨rfl, -⟩ := Prod.mk.inj (Option.some.inj h)
      exact fun v hv => by cases hv
    · simp only [Option.bind_eq_bind, Option.bind_eq_some_iff] at h
      obtain ⟨⟨v, after⟩, hv, h⟩ := h
      have hfirst := hread _ v after hv
      dsimp only at h
      split at h
      · simp only [Option.bind_eq_some_iff, Option.pure_def, Option.some.injEq,
          Prod.mk.injEq] at h
        obtain ⟨⟨vs, last⟩, hvs, rfl, -⟩ := h
        exact List.forall_mem_cons.mpr ⟨hfirst, ih hvs⟩
      · obtain ⟨rfl, -⟩ := Prod.mk.inj (Option.some.inj h)
        exact List.forall_mem_singleton.mpr hfirst
      · cases h

theorem ordered_entries? (hread : ∀ cs v rest, read? cs = some (v, rest) → v.Ordered) (fuel : Nat)
    {t u : Table} (ht : t.Ordered) (h : entries? read? fuel t cs = some (u, rest)) :
    u.Ordered := by
  induction fuel generalizing cs t with
  | zero => cases h
  | succ fuel ih =>
    simp only [entries?, Option.bind_eq_bind, Option.bind_eq_some_iff] at h
    obtain ⟨⟨⟨path, key⟩, after⟩, -, later, -, ⟨v, last⟩, hv, w, hw, h⟩ := h
    have hnext := Table.ordered_addValue? ht (hread _ v last hv) hw
    dsimp only at h
    split at h
    · exact ih hnext h
    · exact (Prod.mk.inj (Option.some.inj h)).1 ▸ hnext
    · cases h

end Loops

theorem ordered_value? {d : Nat} (h : value? d cs = some (v, rest)) : v.Ordered := by
  induction d generalizing cs v rest with
  | zero =>
    unfold value? at h
    split at h
    · cases h
    · cases h
    · exact .leaf (isLeaf_scalar? h)
  | succ d ih =>
    unfold value? at h
    split at h
    · obtain ⟨⟨items, after⟩, hitems, heq⟩ := Option.map_eq_some_iff.mp h
      obtain ⟨rfl, -⟩ := Prod.mk.inj heq
      exact .arr (ordered_items? (fun _ _ _ => ih) _ hitems)
    · split at h
      · exact (Prod.mk.inj (Option.some.inj h)).1 ▸ .obj List.Pairwise.nil fun _ hm => by cases hm
      · obtain ⟨⟨t, after⟩, ht, heq⟩ := Option.map_eq_some_iff.mp h
        obtain ⟨rfl, -⟩ := Prod.mk.inj heq
        exact (ordered_entries? (fun _ _ _ => ih) _ Table.ordered_empty ht).toJson
    · exact .leaf (isLeaf_scalar? h)

/-! ### Documents -/

namespace Draft

variable {d d' : Draft} {t : Table}

/-- A document whose tables are in the order of their names so far. -/
structure Ordered (d : Draft) : Prop where
  root : d.root.Ordered
  current : d.current.Ordered

namespace Ordered

theorem addValue? (h : d.Ordered) (hv : v.Ordered) (hadd : d.addValue? path key v = some d') :
    d'.Ordered := by
  obtain ⟨current, hcurrent, rfl⟩ := Option.map_eq_some_iff.mp hadd
  exact ⟨h.root, Table.ordered_addValue? h.current hv hcurrent⟩

theorem finish? (h : d.Ordered) (hfinish : d.finish? = some t) : t.Ordered := by
  unfold Draft.finish? at hfinish
  split at hfinish
  · exact Option.some.inj hfinish ▸ h.current
  · refine Table.ordered_change? (fun parent u hparent hu => ?_) d.path h.root hfinish
    split at hu
    · obtain rfl := Option.some.inj hu
      refine hparent.put ?_ _
      split
      · exact .tables (List.forall_mem_singleton.mpr h.current.sorted)
          (List.forall_mem_singleton.mpr h.current.members)
      · exact h.current.node
    · next items hget =>
      split at hu
      · obtain rfl := Option.some.inj hu
        cases hparent.get? hget with
        | tables hsorted hall =>
          refine hparent.put (.tables ?_ ?_) _
          · exact List.forall_mem_append.mpr
              ⟨hsorted, List.forall_mem_singleton.mpr h.current.sorted⟩
          · exact List.forall_mem_append.mpr
              ⟨hall, List.forall_mem_singleton.mpr h.current.members⟩
      · cases hu
    · split at hu
      · obtain rfl := Option.some.inj hu
        exact hparent.put h.current.node _
      · cases hu
    · cases hu

/-- The tables that are made for a header are in order. -/
theorem opened (h : d.Ordered) {root : Table} (ht : d.finish? = some t)
    (hroot : Table.change? false some path t = some root) : root.Ordered := by
  refine Table.ordered_change? (fun t u ht hu => ?_) path (h.finish? ht) hroot
  exact Option.some.inj hu ▸ ht

theorem begin? (h : d.Ordered) (hbegin : d.begin? path key = some d') : d'.Ordered := by
  simp only [Draft.begin?, Option.bind_eq_bind, Option.bind_eq_some_iff] at hbegin
  obtain ⟨t, ht, root, hroot, hbegin⟩ := hbegin
  have hordered := h.opened ht hroot
  split at hbegin
  · exact Option.some.inj hbegin ▸ ⟨hordered, Table.ordered_empty⟩
  · next members hfind =>
    obtain ⟨root', hroot', hbegin⟩ := Option.bind_eq_some_iff.mp hbegin
    obtain rfl := Option.some.inj hbegin
    refine ⟨Table.ordered_change? (fun t u ht hu => ?_) path hordered hroot', ?_⟩
    · obtain rfl := Option.some.inj hu
      exact ⟨SortedByName.sorted_erase key ht.sorted,
        fun m hm => ht.members m (List.mem_filter.mp hm).1⟩
    · cases Table.ordered_find? path hordered hfind with
      | table hsorted hall => exact ⟨hsorted, hall⟩
  · cases hbegin

theorem beginRepeated? (h : d.Ordered) (hbegin : d.beginRepeated? path key = some d') :
    d'.Ordered := by
  simp only [Draft.beginRepeated?, Option.bind_eq_bind, Option.bind_eq_some_iff] at hbegin
  obtain ⟨t, ht, root, hroot, hbegin⟩ := hbegin
  have hordered := h.opened ht hroot
  split at hbegin
  · exact Option.some.inj hbegin ▸ ⟨hordered, Table.ordered_empty⟩
  · exact Option.some.inj hbegin ▸ ⟨hordered, Table.ordered_empty⟩
  · cases hbegin

theorem line? (h : d.Ordered) (hline : line? d cs = some (d', rest)) : d'.Ordered := by
  unfold Toml.line? at hline
  split at hline
  · simp only [Option.bind_eq_bind, Option.bind_eq_some_iff, Option.pure_def,
      Option.some.injEq, Prod.mk.injEq] at hline
    obtain ⟨_, -, _, -, _, -, d₁, hd₁, _, -, rfl, -⟩ := hline
    exact h.beginRepeated? hd₁
  · simp only [Option.bind_eq_bind, Option.bind_eq_some_iff, Option.pure_def,
      Option.some.injEq, Prod.mk.injEq] at hline
    obtain ⟨_, -, _, -, d₁, hd₁, _, -, rfl, -⟩ := hline
    exact h.begin? hd₁
  · simp only [Option.bind_eq_bind, Option.bind_eq_some_iff, Option.pure_def,
      Option.some.injEq, Prod.mk.injEq] at hline
    obtain ⟨_, -, _, -, ⟨v, _⟩, hv, d₁, hd₁, _, -, rfl, -⟩ := hline
    exact h.addValue? (ordered_value? hv) hd₁

theorem lines? (fuel : Nat) (h : d.Ordered) (hlines : lines? fuel d cs = some d') :
    d'.Ordered := by
  induction fuel generalizing d cs with
  | zero => cases hlines
  | succ fuel ih =>
    unfold Toml.lines? at hlines
    split at hlines
    · exact Option.some.inj hlines ▸ h
    · obtain ⟨⟨d₁, after⟩, hline, hrest⟩ := Option.bind_eq_some_iff.mp hlines
      exact ih (h.line? hline) hrest

end Ordered

end Draft

/-- What is read from a document is ordered. -/
theorem ordered_read? (h : read? cs = some v) : v.Ordered := by
  simp only [read?, Option.bind_eq_bind, Option.bind_eq_some_iff, Option.pure_def,
    Option.some.injEq] at h
  obtain ⟨d, hd, t, ht, rfl⟩ := h
  have hstart : Draft.start.Ordered := ⟨Table.ordered_empty, Table.ordered_empty⟩
  exact ((hstart.lines? _ hd).finish? ht).toJson

end Toml

/-- The entries of a file are ordered, and so is whatever they hold. -/
theorem ConfigFile.ordered_entries {f : ConfigFile} {entries : List (String × Json)}
    (h : f.entries? = some entries) : (Json.obj entries).Ordered := by
  have hobject : ∀ {v : Json}, v.asObj? = some entries → v = .obj entries := fun {v} hv => by
    cases v with
    | obj members => exact congrArg Json.obj (Option.some.inj hv)
    | _ => cases hv
  unfold ConfigFile.entries? at h
  dsimp only at h
  split at h
  · obtain ⟨v, hv, hentries⟩ := Option.bind_eq_some_iff.mp h
    exact hobject hentries ▸ Toml.ordered_read? hv
  · obtain ⟨w, hw, hentries⟩ := Option.bind_eq_some_iff.mp h
    obtain ⟨v, hv, rfl⟩ := Option.map_eq_some_iff.mp hw
    refine hobject hentries ▸ Json.ordered_mapLeaves (fun v hleaf => ?_) (Json.ordered_read? hv)
    unfold narrowLeaf
    split
    · split <;> rfl
    · exact hleaf

end LanguageHost
