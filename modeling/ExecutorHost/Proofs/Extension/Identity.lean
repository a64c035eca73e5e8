import Std.Data.String.ToNat
import ExecutorHost.Proofs.Extension.Manifest

/-!
# Ids of platforms that are read

Every platform that is made uses up a number, and the numbers are counted from the start of the
process. A platform whose document declares an id has this one; otherwise it has the id that is
generated from its number.
-/

namespace ExecutorHost

/-! ## Counting -/

namespace Generating

variable {ε α β : Type}

/-- A computation does not count back, whether it succeeds or fails. -/
def Counts (action : Generating ε α) : Prop := ∀ n, n ≤ (action.run.run n).2

theorem Counts.pure (a : α) : Counts (pure a : Generating ε α) := fun _ => le_rfl

theorem Counts.throw (e : ε) : Counts (throw e : Generating ε α) := fun _ => le_rfl

theorem Counts.ofExcept (result : Except ε α) :
    Counts (MonadExcept.ofExcept result : Generating ε α) := by
  intro n
  rw [Stateful.run_ofExcept]

theorem Counts.bind {x : Generating ε α} {f : α → Generating ε β} (hx : Counts x)
    (hf : ∀ a, Counts (f a)) : Counts (x >>= f) := by
  intro n
  have hfirst := hx n
  cases hrun : x.run.run n with
  | mk result between =>
    rw [hrun] at hfirst
    cases result with
    | error e =>
      rw [Stateful.run_bind_of_error hrun]
      exact hfirst
    | ok a =>
      rw [Stateful.run_bind_of_ok hrun]
      exact hfirst.trans (hf a between)

theorem Counts.mapM {f : α → Generating ε β} (hf : ∀ a, Counts (f a)) (items : List α) :
    Counts (items.mapM f) := by
  induction items with
  | nil => exact .pure []
  | cons a rest ih =>
    rw [List.mapM_cons]
    exact (hf a).bind fun first => ih.bind fun others => .pure (first :: others)

end Generating

open Generating

/-! ## Ids of platforms -/

namespace Platform

/-- Generated ids differ as long as the numbers do not begin again. -/
theorem generatedId_injOn : Set.InjOn generatedId {n | n < UInt64.size} := by
  intro m hm n hn h
  have hlist := congrArg String.toList h
  simp only [generatedId, String.toList_append] at hlist
  -- only the digits of the number differ
  have hdigits := List.append_cancel_left (List.append_cancel_right hlist)
  have hnumbers : m.toUInt64.toNat = n.toUInt64.toNat :=
    Nat.repr_inj.1 (String.toList_injective hdigits)
  rwa [UInt64.toNat_ofNat_of_lt' hm, UInt64.toNat_ofNat_of_lt' hn] at hnumbers

/-- The id that a platform's document declares. -/
def declaredId (object : Members) : Option String :=
  (Members.get? object "id").bind Document.string?

/-- The id of a platform: the declared one, or else the generated one of its number. -/
def idOf (entry : Option String × Nat) : String := entry.1.getD (generatedId entry.2)

variable {p : Platform} {working : Path} {file : Option Path}

theorem of_run_parse_id {object : Members} {n n' : Nat}
    (h : (parse working object file).run.run n = (.ok p, n')) :
    n' = n + 1 ∧ p.id = idOf (declaredId object, n + 1) := by
  obtain ⟨technology, made, -, hmade, hfilled⟩ := of_run_parse h
  obtain ⟨-, hcount, rfl⟩ := of_run_new hmade
  obtain ⟨declared, hread, hid⟩ := hfilled.id
  have hdeclared : declared = declaredId object := Members.eq_bind_of_optional rfl hread
  refine ⟨hcount, ?_⟩
  rw [hid, hdeclared]
  rfl

theorem counts_new (technology : String) : Counts (new technology) := by
  have hid : Counts (freshId : Generating ExtensionError String) := fun n => n.le_succ
  unfold new
  apply hid.bind
  intro id
  split
  · exact .throw _
  · exact .pure _

theorem counts_parse (working : Path) (object : Members) (file : Option Path) :
    Counts (parse working object file) :=
  (Counts.ofExcept _).bind fun technology => (counts_new technology).bind fun _ => .ofExcept _

end Platform

namespace Manifest

/-- The ids that the platforms of a manifest document declare, in order. -/
def declaredIds (d : Document) : List (Option String) :=
  let platforms := (d.members?.bind (Members.get? · "platforms")).bind Document.items?
  (platforms.getD []).map fun item => item.members?.bind Platform.declaredId

variable {working : Path} {file : Option Path}

theorem declaredIds_of_parseFrame {d : Document} {version : String} {objects : List Members}
    (h : parseFrame d = .ok (version, objects)) :
    declaredIds d = objects.map Platform.declaredId := by
  obtain ⟨object, -, rfl, -, -, -, hfound⟩ := of_parseFrame h
  have hmembers : (Document.object object).members? = some object := rfl
  simp only [declaredIds, hmembers, hfound, Option.bind_some, Document.items?, Option.getD_some,
    List.map_map]
  rfl

/-- Platforms that are read one after another are numbered in this order. -/
theorem of_run_mapM_parse {objects : List Members} {platforms : List Platform} {n n' : Nat}
    (h : (objects.mapM fun object => Platform.parse working object file).run.run n =
      (.ok platforms, n')) :
    n' = n + objects.length ∧
      platforms.map Platform.id =
        ((objects.map Platform.declaredId).zipIdx (n + 1)).map Platform.idOf := by
  induction objects generalizing platforms n with
  | nil =>
    rw [List.mapM_nil] at h
    cases h
    exact ⟨rfl, rfl⟩
  | cons object rest ih =>
    rw [List.mapM_cons] at h
    obtain ⟨p, between, hp, h⟩ := Stateful.of_run_bind_eq_ok h
    obtain ⟨others, last, hothers, h⟩ := Stateful.of_run_bind_eq_ok h
    cases h
    obtain ⟨rfl, hid⟩ := Platform.of_run_parse_id hp
    obtain ⟨rfl, hids⟩ := ih hothers
    refine ⟨?_, ?_⟩
    · rw [List.length_cons]
      omega
    · rw [List.map_cons, List.map_cons, List.zipIdx_cons, List.map_cons, hid, hids]

theorem of_run_parse_ids {d : Document} {m : Manifest} {n n' : Nat}
    (h : (parse working d file).run.run n = (.ok m, n')) :
    n' = n + (declaredIds d).length ∧
      m.platforms.map Platform.id = ((declaredIds d).zipIdx (n + 1)).map Platform.idOf := by
  obtain ⟨objects, hframe, hplatforms⟩ := of_run_parse h
  rw [declaredIds_of_parseFrame hframe, List.length_map]
  exact of_run_mapM_parse hplatforms

theorem counts_parse (working : Path) (d : Document) (file : Option Path) :
    Counts (parse working d file) :=
  (Counts.ofExcept _).bind fun _ =>
    (Counts.mapM (fun object => Platform.counts_parse working object file) _).bind fun _ => .pure _

end Manifest

end ExecutorHost
