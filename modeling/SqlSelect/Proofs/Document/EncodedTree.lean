import Mathlib.Data.List.Nodup
import SqlSelect.Document.Decoding
import SqlSelect.Document.Encoding
import SqlSelect.Proofs.Document.JsonPrinting

/-!
# Reading encoded trees

How the trees that encoding makes are read once they have gone through JSON: scalars,
alternatives, lists and the fields of records. Every list and every table takes one
level, and a tree is read in exactly the depth that it has.

## Main definitions

* `Tree.ReadAs`: a tree is read as a value under a condition, in the depth that it has.

## Main statements

* `Tree.ReadAs.variant` and `Tree.ReadAs.list`: alternatives and lists are read where
  their contents are;
* `Tree.fields?_asJson` and `Tree.payloadFields?_table`: the fields of a record.
-/

namespace SqlSelect

/-! ### Integers -/

namespace Json

/-- An integer of at most 64 bits is kept. -/
theorem intTree_toInt (n : Int64) : intTree n.toInt = .int n.toInt := by
  have hle := n.le_toInt
  have hlt := n.toInt_lt
  exact if_pos (by omega)

theorem intTree_natCast {n : Nat} (h : n < UInt64.size) : intTree n = .int n := by
  have hsize : UInt64.size = 18446744073709551616 := rfl
  exact if_pos (by omega)

end Json

namespace Tree

/-- A natural number below a bound of at most 64 bits is read under that bound. -/
theorem nat?_asJson {n bound : Nat} (h : n < bound) (hbound : bound ≤ UInt64.size) :
    (Tree.int n).asJson.nat? bound = some n := by
  have hjson : (Tree.int n).asJson = .int n :=
    Json.intTree_natCast (Nat.lt_of_lt_of_le h hbound)
  rw [hjson]
  exact if_pos h

/-! ### Alternatives and lists -/

theorem asJson_text (s : String) : (text s).asJson = .text s := rfl

@[simp] theorem asJson_variant (name : String) (payload : Tree) :
    (variant name payload).asJson = variant name payload.asJson := by
  simp [variant, asJson, asJsonMembers]

@[simp] theorem depth_variant (name : String) (payload : Tree) :
    (variant name payload).depth = 1 + payload.depth := by
  simp [variant, depth, depthMembers]

theorem asJsonList_eq_map (ts : List Tree) : asJsonList ts = ts.map asJson := by
  induction ts with
  | nil => rfl
  | cons t ts ih => rw [asJsonList, ih, List.map_cons]

section

variable {α β : Type} {read : Nat → Tree → Option α} {t : Tree} {p p' : Prop} {x : α}

/-- The tree `t` is read as `x` if `p` holds, and only in the depth that it has. -/
def ReadAs (read : Nat → Tree → Option α) (t : Tree) (p : Prop) (x : α) : Prop :=
  ∀ depth y, read depth t.asJson = some y ↔ (p ∧ t.depth ≤ depth) ∧ x = y

theorem ReadAs.iff (h : ReadAs read t p x) {depth : Nat} {y : α} :
    read depth t.asJson = some y ↔ (p ∧ t.depth ≤ depth) ∧ x = y := h depth y

theorem ReadAs.congr (h : ReadAs read t p x) (hp : p ↔ p') : ReadAs read t p' x := by
  intro depth y
  rw [h.iff, hp]

/-- A scalar is read at any depth. -/
theorem ReadAs.scalar {read : Tree → Option α} (hdepth : t.depth = 0)
    (hread : read t.asJson = some x) : ReadAs (fun _ => read) t True x := by
  intro depth y
  simp [hdepth, hread]

/-- An alternative is read one level above its payload. -/
theorem ReadAs.variant {name : String} {readVariant : Nat → Tree → Option β} (wrap : α → β)
    (h : ReadAs read t p x) (hzero : readVariant 0 (.variant name t.asJson) = none)
    (hstep : ∀ n, readVariant (n + 1) (.variant name t.asJson) = (read n t.asJson).map wrap) :
    ReadAs readVariant (Tree.variant name t) p (wrap x) := by
  intro depth y
  rw [asJson_variant, depth_variant]
  cases depth with
  | zero => simp [hzero]
  | succ n =>
    simp only [hstep, Option.map_eq_some_iff, h.iff, Nat.add_comm 1, Nat.add_le_add_iff_right]
    constructor
    · rintro ⟨_, ⟨h, rfl⟩, rfl⟩
      exact ⟨h, rfl⟩
    · rintro ⟨h, rfl⟩
      exact ⟨x, ⟨h, rfl⟩, rfl⟩

/-- A list is read one level above its items. -/
theorem ReadAs.list {encode : β → Tree} {q : β → Prop} {f : β → α} {as : List β}
    (h : ∀ a ∈ as, ReadAs read (encode a) (q a) (f a)) :
    ReadAs (list? read) (.list (as.map encode)) (∀ a ∈ as, q a) (as.map f) := by
  have hitems : ∀ n bs, ((as.map encode).map asJson).mapM (read n) = some bs ↔
      ((∀ a ∈ as, q a) ∧ depthList (as.map encode) ≤ n) ∧ as.map f = bs := by
    intro n
    induction as with
    | nil => simp [depthList]
    | cons a as ih =>
      intro bs
      obtain ⟨ha, has⟩ := List.forall_mem_cons.1 h
      simp only [List.map_cons, List.mapM_cons, Option.bind_eq_bind, Option.bind_eq_some_iff,
        ha.iff, ih has, depthList, Nat.max_le, List.forall_mem_cons]
      constructor
      · rintro ⟨_, ⟨⟨hq, hd⟩, rfl⟩, _, ⟨⟨hqs, hds⟩, rfl⟩, heq⟩
        cases heq
        exact ⟨⟨⟨hq, hqs⟩, hd, hds⟩, rfl⟩
      · rintro ⟨⟨⟨hq, hqs⟩, hd, hds⟩, rfl⟩
        exact ⟨_, ⟨⟨hq, hd⟩, rfl⟩, _, ⟨⟨hqs, hds⟩, rfl⟩, rfl⟩
  intro depth bs
  rw [asJson, asJsonList_eq_map]
  cases depth with
  | zero => simp [list?, depth]
  | succ n => rw [list?, hitems, Tree.depth, Nat.add_comm 1, Nat.add_le_add_iff_right]

end

theorem readAs_text (s : String) : ReadAs (fun _ => text?) (.text s) True s := .scalar rfl rfl

theorem depth_texts (ss : List String) : (texts ss).depth = 1 := by
  rw [texts, depth]
  induction ss with
  | nil => rfl
  | cons s ss ih => simpa [depthList, depth] using ih

theorem readAs_texts (ss : List String) : ReadAs texts? (texts ss) True ss := by
  have hlist : ReadAs texts? (texts ss) (∀ s ∈ ss, True) (ss.map id) :=
    .list fun s _ => readAs_text s
  rw [List.map_id] at hlist
  exact hlist.congr (by simp)

/-! ### Records -/

variable (conventions : Conventions)

theorem lookup_of_nodup {ms : List (String × Tree)} (h : (ms.map Prod.fst).Nodup)
    {m : String × Tree} (hm : m ∈ ms) : ms.lookup m.1 = some m.2 := by
  induction ms with
  | nil => cases hm
  | cons first rest ih =>
    rw [List.map_cons, List.nodup_cons] at h
    obtain rfl | hm := List.mem_cons.1 hm
    · exact List.lookup_cons_self
    · have hne : (m.1 == first.1) = false := by
        rw [beq_eq_false_iff_ne]
        rintro heq
        exact h.1 (heq ▸ List.mem_map_of_mem hm)
      rw [List.lookup_cons, hne, ih h.2 hm]

/-- The fields of a table without repeated members, under their own names. -/
theorem fields?_table (ms : List (String × Tree)) (h : (ms.map Prod.fst).Nodup) :
    (table ms).fields? conventions (ms.map Prod.fst) = some (ms.map fun m => some m.2) := by
  have honce : (ms.map Prod.fst).all
      (fun name => (ms.filter fun m => m.1 == name).length ≤ 1) = true := by
    rw [List.all_eq_true]
    intro name _
    have hcount := List.nodup_iff_count_le_one.1 h name
    rw [List.count, List.countP_map, List.countP_eq_length_filter] at hcount
    exact decide_eq_true hcount
  rw [fields?, if_pos honce, List.map_map]
  exact congrArg some (List.map_congr_left fun m hm => lookup_of_nodup h hm)

theorem payloadFields?_table (ms : List (String × Tree)) (h : (ms.map Prod.fst).Nodup) :
    (table ms).payloadFields? conventions (ms.map Prod.fst) =
      some (ms.map fun m => some m.2) := by
  have hother : (table ms).hasOther (ms.map Prod.fst) = false := by
    rw [hasOther, List.any_eq_false]
    intro m hm
    simpa using List.mem_map_of_mem (f := Prod.fst) hm
  rw [payloadFields?, hother, fields?_table conventions ms h]
  rfl

theorem asJsonMembers_eq_map (ms : List (String × Tree)) :
    asJsonMembers ms = ms.map fun m => (m.1, m.2.asJson) := by
  induction ms with
  | nil => rfl
  | cons m ms ih => rw [asJsonMembers, ih, List.map_cons]

/-- The fields of a record after it has gone through JSON. -/
theorem fields?_asJson (ms : List (String × Tree)) (h : (ms.map Prod.fst).Nodup) :
    (table ms).asJson.fields? conventions (ms.map Prod.fst) =
      some (ms.map fun m => some m.2.asJson) := by
  have hnames : (asJsonMembers ms).map Prod.fst = ms.map Prod.fst := by
    rw [asJsonMembers_eq_map, List.map_map]
    rfl
  rw [asJson, ← hnames, fields?_table conventions _ (hnames ▸ h), asJsonMembers_eq_map,
    List.map_map]
  rfl

end Tree

end SqlSelect
