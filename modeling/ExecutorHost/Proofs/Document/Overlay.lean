import ExecutorHost.Proofs.Document.Members

/-!
# Overlaying layer by layer

An object may be overlaid by a second one and the result by a third, or the third may be put on the
second before both are put on the first. One put on the upper object is one put on the result
(`overlay_put`), and with that the two ways end in the same object, in the same order.
-/

namespace ExecutorHost.Members

/-! ## Puts that change places -/

/-- A value put under a key that is there may be put before or after the value of another key. -/
theorem put_comm {members : Members} {key other : String} (hkey : key ∈ keys members)
    (hne : other ≠ key) (value second : Document) :
    put (put members other second) key value = put (put members key value) other second := by
  induction members with
  | nil => cases hkey
  | cons entry rest ih =>
    obtain ⟨k, v⟩ := entry
    by_cases hk : k = key
    · have hother : k ≠ other := fun e => hne (e.symm.trans hk)
      simp only [put, if_neg hother, if_pos hk, if_neg hne.symm]
    · have hrest : key ∈ keys rest := by
        rcases List.mem_cons.1 hkey with he | hmem
        · exact absurd he.symm hk
        · exact hmem
      by_cases ho : k = other
      · simp only [put, if_pos ho, if_neg hk, if_neg hne]
      · simp only [put, if_neg ho, if_neg hk, ih hrest]

/-- A key that is there and that the upper object lacks keeps its place, whether its value is put
before or after the overlaying. -/
theorem put_overlay_of_notMem {base upper : Members} {key : String} (hbase : key ∈ keys base)
    (hupper : key ∉ keys upper) (value : Document) :
    put (overlay base upper) key value = overlay (put base key value) upper := by
  induction upper generalizing base with
  | nil => rfl
  | cons entry rest ih =>
    obtain ⟨k, v⟩ := entry
    rw [keys_cons, List.mem_cons, not_or] at hupper
    obtain ⟨hne, hrest⟩ := hupper
    have hkept : key ∈ keys (put base k v) := by
      obtain ⟨old, hold⟩ := mem_keys_iff.1 hbase
      exact mem_keys_iff.2 ⟨old, (get?_put_of_ne base hne v).trans hold⟩
    rw [overlay_cons, overlay_cons, ih hkept hrest, put_comm hbase (Ne.symm hne)]

/-- A value put into the upper object is put into the result. -/
theorem overlay_put (base : Members) {upper : Members} (h : Distinct upper) (key : String)
    (value : Document) :
    overlay base (put upper key value) = put (overlay base upper) key value := by
  induction upper generalizing base with
  | nil => rfl
  | cons entry rest ih =>
    obtain ⟨k, v⟩ := entry
    obtain ⟨hnew, hrest⟩ := List.nodup_cons.1 (show (k :: keys rest).Nodup from h)
    by_cases hk : k = key
    · -- on the right the old value stands until `rest`, which lacks the key, has been put
      subst hk
      have hput : k ∈ keys (put base k v) := mem_keys_iff.2 ⟨v, get?_put_self base k v⟩
      rw [put, if_pos rfl, overlay_cons, overlay_cons, put_overlay_of_notMem hput hnew, put_put]
    · rw [put, if_neg hk, overlay_cons, overlay_cons, ih _ hrest]

/-! ## The laws -/

theorem overlay_assoc (a : Members) {b : Members} (hb : Distinct b) (c : Members) :
    overlay (overlay a b) c = overlay a (overlay b c) := by
  induction c generalizing b with
  | nil => rfl
  | cons entry rest ih =>
    obtain ⟨k, v⟩ := entry
    calc overlay (overlay a b) ((k, v) :: rest)
        = overlay (put (overlay a b) k v) rest := overlay_cons _ _ _ _
      _ = overlay (overlay a (put b k v)) rest := by rw [overlay_put a hb]
      _ = overlay a (overlay (put b k v) rest) := ih (distinct_put hb k v)
      _ = overlay a (overlay b ((k, v) :: rest)) := by rw [overlay_cons]

theorem nil_overlay {members : Members} (h : Distinct members) : overlay [] members = members := by
  have hempty : Distinct [] := List.nodup_nil
  rw [overlay_eq hempty h]
  simp [followedBy]

/-- Values that are there already change nothing. -/
theorem overlay_of_get? {base upper : Members}
    (h : ∀ entry ∈ upper, get? base entry.1 = some entry.2) : overlay base upper = base := by
  induction upper with
  | nil => rfl
  | cons entry rest ih =>
    obtain ⟨k, v⟩ := entry
    have hput : put base k v = base := put_of_get? (h (k, v) List.mem_cons_self)
    rw [overlay_cons, hput]
    exact ih fun later hlater => h later (List.mem_cons_of_mem _ hlater)

theorem overlay_self {members : Members} (h : Distinct members) :
    overlay members members = members :=
  overlay_of_get? fun _ hentry => get?_of_mem h hentry

/-- Objects with distinct keys are a monoid under overlaying, with the order of their keys, and
every object is idempotent. The keys of the lower object stand first and those that are new follow
in the order of the upper object, whose values go first. -/
theorem overlay_forms_ordered_monoid {a b : Members} (ha : Distinct a) (hb : Distinct b) :
    Distinct (overlay a b) ∧
    keys (overlay a b) = keys a ++ (keys b).filter (· ∉ keys a) ∧
    (∀ key value, get? b key = some value → get? (overlay a b) key = some value) ∧
    (∀ key, get? b key = none → get? (overlay a b) key = get? a key) ∧
    (∀ c, overlay (overlay a b) c = overlay a (overlay b c)) ∧
    overlay [] a = a ∧ overlay a [] = a ∧
    overlay a a = a := by
  have hvalue := get?_overlay a hb
  refine ⟨distinct_overlay ha b, keys_overlay a hb, fun key value hupper => ?_,
    fun key hlacks => ?_, overlay_assoc a hb, nil_overlay ha, overlay_nil a, overlay_self ha⟩
  · rw [hvalue, hupper, Option.some_or]
  · rw [hvalue, hlacks, Option.none_or]

/-- The lowest of three layers. -/
def lowest : Members := [
  ("radius", .number (.whole 1)),
  ("sigma", .number (.whole 2)),
  ("edges", .object [("fill", .bool true)])]

/-- A layer that sets a key to null and brings two new ones. -/
def middle : Members := [("gamma", .string "g"), ("sigma", .null), ("alpha", .bool false)]

/-- A layer with a key of each of the others and a new one. -/
def highest : Members := [
  ("beta", .null),
  ("alpha", .bool true),
  ("edges", .number (.whole 0))]

theorem overlay_lowest_middle_highest :
    Distinct lowest ∧ Distinct middle ∧ Distinct (overlay lowest middle) ∧
      keys (overlay lowest middle) = ["radius", "sigma", "edges", "gamma", "alpha"] ∧
      (get? middle "sigma" = some .null ∧
        get? (overlay lowest middle) "sigma" = some .null) ∧
      (get? middle "edges" = none ∧
        get? (overlay lowest middle) "edges" = some (.object [("fill", .bool true)])) ∧
      overlay (overlay lowest middle) highest = overlay lowest (overlay middle highest) ∧
      overlay [] lowest = lowest ∧ overlay lowest [] = lowest ∧
      overlay lowest lowest = lowest := by
  have hlowest : Distinct lowest := by decide
  have hmiddle : Distinct middle := by decide
  obtain ⟨hdistinct, hkeys, hupper, hlower, hassoc, hleft, hright, hself⟩ :=
    overlay_forms_ordered_monoid hlowest hmiddle
  have hedges : get? middle "edges" = none := by decide
  exact ⟨hlowest, hmiddle, hdistinct, hkeys, ⟨rfl, hupper _ _ rfl⟩,
    ⟨hedges, hlower _ hedges⟩, hassoc highest, hleft, hright, hself⟩

end ExecutorHost.Members
