import PatternRouter.Toml.Document
import PatternRouter.Proofs.DistinctKeys

namespace PatternRouter.Toml

inductive Value.Distinct : Value → Prop
  | string (s : String) : Distinct (.string s)
  | integer (n : Int) : Distinct (.integer n)
  | float (text : String) : Distinct (.float text)
  | boolean (b : Bool) : Distinct (.boolean b)
  | datetime (text : String) : Distinct (.datetime text)
  | array {items : List Value} : (∀ v ∈ items, v.Distinct) → Distinct (.array items)
  | table {entries : List (String × Value)} : (entries.map Prod.fst).Nodup →
      (∀ e ∈ entries, e.2.Distinct) → Distinct (.table entries)

theorem Value.distinct_table_iff {entries : List (String × Value)} :
    (Value.table entries).Distinct ↔
      (entries.map Prod.fst).Nodup ∧ ∀ e ∈ entries, e.2.Distinct := by
  constructor
  · rintro (_ | _ | _ | _ | _ | _ | ⟨keys, items⟩)
    exact ⟨keys, items⟩
  · rintro ⟨keys, items⟩
    exact .table keys items

inductive Item.Distinct : Item → Prop
  | value {v : Value} : v.Distinct → Distinct (.value v)
  | table {origin : Origin} {entries : Entries} : (entries.map Prod.fst).Nodup →
      (∀ e ∈ entries, e.2.Distinct) → Distinct (.table origin entries)
  | tables {items : List Entries} : (∀ t ∈ items, (t.map Prod.fst).Nodup) →
      (∀ t ∈ items, ∀ e ∈ t, e.2.Distinct) → Distinct (.tables items)

/-- Whether the keys of a table and of each table in it are distinct. -/
structure Entries.Distinct (es : Entries) : Prop where
  keys : (es.map Prod.fst).Nodup
  items : ∀ e ∈ es, e.2.Distinct

theorem entryValues_eq_map (es : Entries) :
    entryValues es = es.map fun e => (e.1, e.2.toValue) := by
  induction es with
  | nil => rfl
  | cons e es ih => rw [entryValues, ih, List.map_cons]

theorem tableValues_eq_map (ts : List Entries) :
    tableValues ts = ts.map fun t => .table (entryValues t) := by
  induction ts with
  | nil => rfl
  | cons t ts ih => rw [tableValues, ih, List.map_cons]

theorem map_fst_entryValues (es : Entries) : (entryValues es).map Prod.fst = es.map Prod.fst := by
  rw [entryValues_eq_map, List.map_map]
  rfl

theorem Item.Distinct.toValue {item : Item} (h : item.Distinct) : item.toValue.Distinct := by
  have values : ∀ {es : Entries}, (es.map Prod.fst).Nodup → (∀ e ∈ es, e.2.toValue.Distinct) →
      (Value.table (entryValues es)).Distinct := by
    intro es keys items
    refine .table (by rwa [map_fst_entryValues]) ?_
    rw [entryValues_eq_map, List.forall_mem_map]
    exact items
  induction h with
  | value hv =>
    rw [Item.toValue]
    exact hv
  | table keys _ ih =>
    rw [Item.toValue]
    exact values keys ih
  | tables keys _ ih =>
    rw [Item.toValue, tableValues_eq_map]
    refine .array fun v hv => ?_
    obtain ⟨t, ht, rfl⟩ := List.mem_map.1 (List.mem_reverse.1 hv)
    exact values (keys t ht) (ih t ht)

theorem Item.distinct_table_iff {origin : Origin} {es : Entries} :
    (Item.table origin es).Distinct ↔ es.Distinct := by
  constructor
  · rintro (_ | ⟨keys, items⟩)
    exact ⟨keys, items⟩
  · intro h
    exact .table h.keys h.items

theorem Item.distinct_tables_iff {ts : List Entries} :
    (Item.tables ts).Distinct ↔ ∀ t ∈ ts, t.Distinct := by
  constructor
  · rintro (_ | _ | ⟨keys, items⟩) t ht
    exact ⟨keys t ht, items t ht⟩
  · intro h
    exact .tables (fun t ht => (h t ht).keys) fun t ht => (h t ht).items

namespace Entries

variable {es es' : Entries} {key : String} {item : Item}

theorem mem_of_mem_put {e : String × Item} (h : e ∈ es.put key item) :
    e = (key, item) ∨ e ∈ es := by
  induction es with
  | nil => exact .inl (List.mem_singleton.1 h)
  | cons first es ih =>
    rw [put] at h
    split at h
    · exact (List.mem_cons.1 h).imp_right (List.mem_cons_of_mem first)
    · rcases List.mem_cons.1 h with rfl | h
      · exact .inr List.mem_cons_self
      · exact (ih h).imp_right (List.mem_cons_of_mem first)

namespace Distinct

theorem nil : Distinct [] := ⟨List.nodup_nil, List.forall_mem_nil _⟩

theorem of_lookup (h : es.Distinct) (found : es.lookup key = some item) : item.Distinct :=
  h.items _ ((lookup_eq_some_iff_mem h.keys).1 found)

theorem put (h : es.Distinct) (hi : item.Distinct) (key : String) : (es.put key item).Distinct := by
  refine ⟨?_, fun e he => ?_⟩
  · have keys := h.keys
    clear h
    induction es with
    | nil => exact List.nodup_singleton key
    | cons e es ih =>
      rw [List.map_cons, List.nodup_cons] at keys
      rw [Entries.put]
      split
      · next here => rwa [List.map_cons, List.nodup_cons, ← here]
      · next other =>
        rw [List.map_cons, List.nodup_cons]
        refine ⟨fun again => ?_, ih keys.2⟩
        obtain ⟨e', he', same⟩ := List.mem_map.1 again
        rcases mem_of_mem_put he' with rfl | before
        · exact other same.symm
        · exact keys.1 (same ▸ List.mem_map_of_mem before)
  · rcases mem_of_mem_put he with rfl | before
    · exact hi
    · exact h.items e before

theorem concat (h : es.Distinct) (hi : item.Distinct) (new : es.lookup key = none) :
    Distinct (es ++ [(key, item)]) := by
  refine ⟨nodup_keys_concat h.keys new item, fun e he => ?_⟩
  rcases List.mem_append.1 he with before | last
  · exact h.items e before
  · obtain rfl := List.mem_singleton.1 last
    exact hi

/-- A change that leaves the keys of the table at the end of a path distinct does so for all. -/
theorem update {made : Origin} {change : Origin → Entries → Option Entries}
    (kept : ∀ origin t t', t.Distinct → change origin t = some t' → t'.Distinct)
    {path : List String} {origin : Origin} (h : es.Distinct)
    (came : es.update made change path origin = some es') : es'.Distinct := by
  -- By induction on the path; on the way back each table is put in the place that it was found in.
  induction path generalizing origin es es' with
  | nil => exact kept origin es es' h came
  | cons key path ih =>
    rw [Entries.update] at came
    split at came
    · obtain ⟨t, ht, rfl⟩ := Option.map_eq_some_iff.1 came
      exact h.put (Item.distinct_table_iff.2 (ih nil ht)) key
    · cases came
    · next origin t found =>
      split at came
      · cases came
      · obtain ⟨t', ht', rfl⟩ := Option.map_eq_some_iff.1 came
        have before := Item.distinct_table_iff.1 (h.of_lookup found)
        exact h.put (Item.distinct_table_iff.2 (ih before ht')) key
    · cases came
    · next t ts found =>
      obtain ⟨t', ht', rfl⟩ := Option.map_eq_some_iff.1 came
      have before := Item.distinct_tables_iff.1 (h.of_lookup found)
      rw [List.forall_mem_cons] at before
      have after := List.forall_mem_cons.2 ⟨ih before.1 ht', before.2⟩
      exact h.put (Item.distinct_tables_iff.2 after) key

theorem addPair {path : List String} {v : Value} (h : es.Distinct) (hv : v.Distinct)
    (came : es.addPair path key v = some es') : es'.Distinct := by
  refine h.update (fun origin t t' ht changed => ?_) came
  split at changed
  · cases changed
  · next free =>
    obtain rfl := Option.some.inj changed
    refine ht.concat (.value hv) ?_
    rw [not_or, Option.not_isSome_iff_eq_none] at free
    exact free.2

theorem addTable {path : List String} (h : es.Distinct)
    (came : es.addTable path key = some es') : es'.Distinct := by
  refine h.update (fun origin t t' ht changed => ?_) came
  split at changed
  · next free =>
    obtain rfl := Option.some.inj changed
    exact ht.concat (Item.distinct_table_iff.2 nil) free
  · next sub found =>
    obtain rfl := Option.some.inj changed
    have before := Item.distinct_table_iff.1 (ht.of_lookup found)
    exact ht.put (Item.distinct_table_iff.2 before) key
  · cases changed

theorem addTables {path : List String} (h : es.Distinct)
    (came : es.addTables path key = some es') : es'.Distinct := by
  refine h.update (fun origin t t' ht changed => ?_) came
  split at changed
  · next free =>
    obtain rfl := Option.some.inj changed
    refine ht.concat (Item.distinct_tables_iff.2 ?_) free
    exact List.forall_mem_singleton.2 nil
  · next ts found =>
    obtain rfl := Option.some.inj changed
    have before := Item.distinct_tables_iff.1 (ht.of_lookup found)
    exact ht.put (Item.distinct_tables_iff.2 (List.forall_mem_cons.2 ⟨nil, before⟩)) key
  · cases changed

end Distinct

end Entries

def Gives {β : Type} (read : Reader β) (P : β → Prop) : Prop :=
  ∀ s x rest, read s = some (x, rest) → P x

theorem Gives.map {β γ : Type} {read : Reader β} {P : β → Prop} (h : Gives read P) {f : β → γ}
    {s t : List Char} {y : γ} (came : (read s).map (fun r => (f r.1, r.2)) = some (y, t)) :
    ∃ x, P x ∧ y = f x := by
  obtain ⟨⟨x, rest⟩, hx, same⟩ := Option.map_eq_some_iff.1 came
  exact ⟨x, h s x rest hx, (congrArg Prod.fst same).symm⟩

section

variable {read : Reader Value} {P : Value → Prop} (h : Gives read P)
include h

theorem gives_arrayItems (fuel : Nat) : Gives (arrayItems read fuel) (∀ v ∈ ·, P v) := by
  induction fuel with
  | zero => nofun
  | succ fuel ih =>
    intro s vs rest came
    rw [arrayItems] at came
    split at came
    · obtain ⟨rfl, -⟩ := Prod.mk.inj (Option.some.inj came)
      exact List.forall_mem_nil _
    · obtain ⟨⟨v, t⟩, hv, came⟩ := Option.bind_eq_some_iff.1 came
      have first := h _ _ _ hv
      dsimp only at came
      split at came
      · obtain ⟨rfl, -⟩ := Prod.mk.inj (Option.some.inj came)
        exact List.forall_mem_singleton.2 first
      · obtain ⟨vs, later, rfl⟩ := ih.map came
        exact List.forall_mem_cons.2 ⟨first, later⟩
      · cases came

theorem gives_pair : Gives (pair read) (P ·.2.2) := by
  intro s p rest came
  obtain ⟨⟨⟨path, last⟩, t⟩, -, came⟩ := Option.bind_eq_some_iff.1 came
  obtain ⟨t, -, came⟩ := Option.bind_eq_some_iff.1 came
  obtain ⟨⟨v, t⟩, hv, came⟩ := Option.bind_eq_some_iff.1 came
  obtain ⟨rfl, -⟩ := Prod.mk.inj (Option.some.inj came)
  exact h _ _ _ hv

theorem gives_tablePairs (fuel : Nat) : Gives (tablePairs read fuel) (∀ p ∈ ·, P p.2.2) := by
  induction fuel with
  | zero => nofun
  | succ fuel ih =>
    intro s ps rest came
    obtain ⟨⟨p, t⟩, hp, came⟩ := Option.bind_eq_some_iff.1 came
    have first := gives_pair h _ _ _ hp
    dsimp only at came
    split at came
    · obtain ⟨rfl, -⟩ := Prod.mk.inj (Option.some.inj came)
      exact List.forall_mem_singleton.2 first
    · obtain ⟨ps, later, rfl⟩ := ih.map came
      exact List.forall_mem_cons.2 ⟨first, later⟩
    · cases came

end

theorem Entries.Distinct.addPairs {ps : List (List String × String × Value)}
    (hps : ∀ p ∈ ps, p.2.2.Distinct) {es es' : Entries} (h : es.Distinct)
    (came : addPairs es ps = some es') : es'.Distinct := by
  induction ps generalizing es with
  | nil =>
    obtain rfl := Option.some.inj came
    exact h
  | cons p ps ih =>
    obtain ⟨t, ht, came⟩ := Option.bind_eq_some_iff.1 came
    obtain ⟨first, later⟩ := List.forall_mem_cons.1 hps
    exact ih later (h.addPair first ht) came

theorem gives_bracedTable {read : Reader Value} (h : Gives read Value.Distinct) :
    Gives (bracedTable read) Value.Distinct := by
  intro s v rest came
  unfold bracedTable at came
  split at came
  · obtain ⟨rfl, -⟩ := Prod.mk.inj (Option.some.inj came)
    exact (Item.distinct_table_iff.2 .nil : (Item.table .defined []).Distinct).toValue
  · obtain ⟨⟨ps, t⟩, hps, came⟩ := Option.bind_eq_some_iff.1 came
    obtain ⟨es, hes, came⟩ := Option.bind_eq_some_iff.1 came
    obtain ⟨rfl, -⟩ := Prod.mk.inj (Option.some.inj came)
    have distinct := Entries.Distinct.nil.addPairs (gives_tablePairs h _ _ _ _ hps) hes
    exact (Item.distinct_table_iff.2 distinct : (Item.table .defined es).Distinct).toValue

theorem gives_boolean : Gives boolean Value.Distinct := by
  intro s v rest came
  unfold boolean at came
  split at came
  · obtain ⟨rfl, -⟩ := Prod.mk.inj (Option.some.inj came)
    exact .boolean true
  · obtain ⟨rfl, -⟩ := Prod.mk.inj (Option.some.inj came)
    exact .boolean false
  · cases came

theorem gives_number : Gives number Value.Distinct := by
  intro s v rest came
  unfold number at came
  split at came
  · obtain ⟨rfl, -⟩ := Prod.mk.inj (Option.some.inj came)
    exact .datetime _
  · split at came
    · obtain ⟨rfl, -⟩ := Prod.mk.inj (Option.some.inj came)
      exact .float _
    · obtain ⟨⟨n, t⟩, -, same⟩ := Option.map_eq_some_iff.1 came
      obtain ⟨rfl, -⟩ := Prod.mk.inj same
      exact .integer n

/-- However deep a value goes, no key stands twice in one of its tables. -/
theorem gives_value (depth : Nat) : Gives (value depth) Value.Distinct := by
  induction depth using Nat.strongRecOn with
  | ind depth ih =>
    intro s v rest came
    cases s with
    | nil => cases depth <;> cases came
    | cons c s =>
      rw [value.eq_def] at came
      dsimp only at came
      split at came
      · obtain ⟨⟨x, t⟩, -, same⟩ := Option.map_eq_some_iff.1 came
        obtain ⟨rfl, -⟩ := Prod.mk.inj same
        exact .string x
      split at came
      · split at came
        · cases came
        · next d =>
          obtain ⟨vs, distinct, rfl⟩ := (gives_arrayItems (ih d (Nat.lt_add_one d)) _).map came
          exact .array distinct
      split at came
      · split at came
        · cases came
        · next d => exact gives_bracedTable (ih d (Nat.lt_add_one d)) _ _ _ came
      split at came
      · exact gives_boolean _ _ _ came
      · exact gives_number _ _ _ came

def Line.Distinct : Line → Prop
  | .pair _ _ v => v.Distinct
  | _ => True

theorem eq_of_lineEnd {l l' : Line} {s t : List Char}
    (came : (lineEnd? s).map (fun s => (l, s)) = some (l', t)) : l' = l := by
  obtain ⟨u, -, same⟩ := Option.map_eq_some_iff.1 came
  exact (congrArg Prod.fst same).symm

theorem gives_line : Gives line Line.Distinct := by
  intro s l rest came
  unfold line at came
  split at came
  · obtain ⟨⟨⟨path, last⟩, t⟩, -, came⟩ := Option.bind_eq_some_iff.1 came
    dsimp only at came
    split at came
    · obtain rfl := eq_of_lineEnd came
      trivial
    · cases came
  · obtain ⟨⟨⟨path, last⟩, t⟩, -, came⟩ := Option.bind_eq_some_iff.1 came
    dsimp only at came
    split at came
    · obtain rfl := eq_of_lineEnd came
      trivial
    · cases came
  · split at came
    · obtain ⟨rfl, -⟩ := Prod.mk.inj (Option.some.inj came)
      trivial
    · obtain ⟨⟨p, t⟩, hp, came⟩ := Option.bind_eq_some_iff.1 came
      obtain rfl := eq_of_lineEnd came
      exact gives_pair (gives_value _) _ _ _ hp

theorem distinct_of_mem_lines {fuel : Nat} {s : List Char} {ls : List Line}
    (came : lines fuel s = some ls) : ∀ l ∈ ls, l.Distinct := by
  fun_induction lines fuel s generalizing ls with
  | case1 =>
    obtain rfl := Option.some.inj came
    exact List.forall_mem_nil _
  | case2 => cases came
  | case3 fuel s _ ih =>
    obtain ⟨⟨l, t⟩, hl, came⟩ := Option.bind_eq_some_iff.1 came
    obtain ⟨ls, hls, came⟩ := Option.bind_eq_some_iff.1 came
    obtain rfl := Option.some.inj came
    exact List.forall_mem_cons.2 ⟨gives_line _ _ _ hl, ih t hls⟩

/-- Each line leaves the keys of every table distinct. -/
theorem Entries.Distinct.assemble {ls : List Line} (hls : ∀ l ∈ ls, l.Distinct)
    {current : List String} {es es' : Entries} (h : es.Distinct)
    (came : assemble current es ls = some es') : es'.Distinct := by
  induction ls generalizing current es with
  | nil =>
    obtain rfl := Option.some.inj came
    exact h
  | cons l ls ih =>
    obtain ⟨first, later⟩ := List.forall_mem_cons.1 hls
    cases l with
    | blank => exact ih later h came
    | pair path key v =>
      obtain ⟨t, ht, came⟩ := Option.bind_eq_some_iff.1 came
      have distinct := h.update (fun _ _ _ before => before.addPair first) ht
      exact ih later distinct came
    | header path key =>
      obtain ⟨t, ht, came⟩ := Option.bind_eq_some_iff.1 came
      exact ih later (h.addTable ht) came
    | repeated path key =>
      obtain ⟨t, ht, came⟩ := Option.bind_eq_some_iff.1 came
      exact ih later (h.addTables ht) came

/-- No key stands twice in a table of a document. -/
theorem distinct_of_document? {text : String} {entries : List (String × Value)}
    (came : document? text = some entries) : (Value.table entries).Distinct := by
  obtain ⟨ls, hls, came⟩ := Option.bind_eq_some_iff.1 came
  obtain ⟨es, hes, came⟩ := Option.bind_eq_some_iff.1 came
  obtain rfl := Option.some.inj came
  have distinct := Entries.Distinct.nil.assemble (distinct_of_mem_lines hls) hes
  exact (Item.distinct_table_iff.2 distinct : (Item.table .defined es).Distinct).toValue

end PatternRouter.Toml
