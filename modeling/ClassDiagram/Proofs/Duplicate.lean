import ClassDiagram.Proofs.Index
import Mathlib.Data.List.Induction
import Mathlib.Data.List.Nodup
import Mathlib.Data.Nat.Notation

/-! Names that more than one class carries. A pass over the classes reports each of them where it is
met the second time. Only for these names it matters which of the declarations a name stands for:
where none is reported, every class is the one that its name finds. -/

namespace ClassDiagram

/-- An occurrence in a joined list is one of the front, or stands behind all of them. -/
theorem idxOfNth_append {α : Type} [DecidableEq α] (l l' : List α) (x : α) (k : ℕ) :
    (l ++ l').idxOfNth x k =
      if k < l.count x then l.idxOfNth x k else l.length + l'.idxOfNth x (k - l.count x) := by
  induction l generalizing k with
  | nil => simp
  | cons a l ih =>
    by_cases ha : a = x
    · subst ha
      cases k with
      | zero => simp
      | succ k =>
        rw [List.cons_append, List.idxOfNth_cons_succ_of_beq BEq.rfl, ih,
          List.idxOfNth_cons_succ_of_beq BEq.rfl, List.count_cons_self, List.length_cons]
        split
        · rw [if_pos (by omega)]
        · rw [if_neg (by omega), Nat.add_sub_add_right, Nat.add_right_comm]
    · have hne : (a == x) = false := by simpa using ha
      rw [List.cons_append, List.idxOfNth_cons_of_not_beq hne, ih,
        List.idxOfNth_cons_of_not_beq hne, List.count_cons_of_ne ha, List.length_cons]
      split
      · rfl
      · rw [Nat.add_right_comm]

/-! ### What a pass reports -/

namespace Census

variable {c : Census} {names : List String} {name : String}

theorem ofNames_append_singleton (names : List String) (name : String) :
    ofNames (names ++ [name]) = (ofNames names).meet name := by
  rw [ofNames, List.foldl_concat]
  rfl

/-- What a census says of the names that were met: which they are, which of them were met more than
once, and in which order their second occurrences stand (`idxOfNth` counts these from zero). -/
structure Covers (c : Census) (names : List String) : Prop where
  met : ∀ n, n ∈ c.met ↔ n ∈ names
  again : ∀ n, n ∈ c.again ↔ 1 < names.count n
  order : c.again.Pairwise fun a b => names.idxOfNth a 1 < names.idxOfNth b 1

namespace Covers

theorem empty : Census.empty.Covers [] := by
  constructor <;> simp [Census.empty]

/-- A name is reported when it is met the second time, neither before nor after. -/
theorem again_meet (h : c.Covers names) (name : String) :
    (c.meet name).again = if names.count name = 1 then c.again ++ [name] else c.again := by
  have hsecond : name ∈ c.met ∧ name ∉ c.again ↔ names.count name = 1 := by
    rw [h.met, h.again, ← List.one_le_count_iff]
    omega
  exact if_congr hsecond rfl rfl

theorem mem_again_meet (h : c.Covers names) (name n : String) :
    n ∈ (c.meet name).again ↔ 1 < (names ++ [name]).count n := by
  rw [h.again_meet, List.count_append]
  by_cases hn : name = n
  · subst hn
    rw [List.count_singleton_self]
    split
    · next hone => exact iff_of_true List.mem_concat_self (by omega)
    · rw [h.again]
      omega
  · have hnew : [name].count n = 0 := List.count_eq_zero.2 (by simpa using Ne.symm hn)
    rw [hnew, Nat.add_zero, ← h.again]
    split
    · simp [Ne.symm hn]
    · rfl

/-- What is met later does not move the second occurrence of a name that is reported. -/
theorem second_append (h : c.Covers names) (hn : name ∈ c.again) (later : List String) :
    (names ++ later).idxOfNth name 1 = names.idxOfNth name 1 := by
  rw [idxOfNth_append, if_pos ((h.again name).1 hn)]

theorem second_lt (h : c.Covers names) (hn : name ∈ c.again) :
    names.idxOfNth name 1 < names.length :=
  List.idxOfNth_lt_length_of_lt_count ((h.again name).1 hn)

theorem order_meet (h : c.Covers names) (name : String) : (c.meet name).again.Pairwise fun a b =>
    (names ++ [name]).idxOfNth a 1 < (names ++ [name]).idxOfNth b 1 := by
  have hkept : c.again.Pairwise fun a b =>
      (names ++ [name]).idxOfNth a 1 < (names ++ [name]).idxOfNth b 1 := by
    refine h.order.imp_of_mem fun ha hb hlt => ?_
    rwa [h.second_append ha, h.second_append hb]
  rw [h.again_meet]
  split
  · next hone =>
    have hlast : (names ++ [name]).idxOfNth name 1 = names.length := by
      rw [idxOfNth_append, if_neg (by omega), hone]
      simp
    refine List.pairwise_append.2 ⟨hkept, List.pairwise_singleton _ _, fun a ha b hb => ?_⟩
    rw [List.mem_singleton.1 hb, h.second_append ha, hlast]
    exact h.second_lt ha
  · exact hkept

theorem meet (h : c.Covers names) (name : String) : (c.meet name).Covers (names ++ [name]) where
  met n := by
    rw [Census.meet, List.mem_insert_iff, h.met, List.mem_append, List.mem_singleton, or_comm]
  again n := h.mem_again_meet name n
  order := h.order_meet name

theorem ofNames (names : List String) : (Census.ofNames names).Covers names := by
  induction names using List.reverseRecOn with
  | nil => exact empty
  | append_singleton names name ih =>
    rw [ofNames_append_singleton]
    exact ih.meet name

theorem nodup (h : c.Covers names) : c.again.Nodup :=
  h.order.imp fun hlt => ne_of_apply_ne (names.idxOfNth · 1) (Nat.ne_of_lt hlt)

theorem again_eq_nil_iff (h : c.Covers names) : c.again = [] ↔ names.Nodup := by
  rw [List.nodup_iff_count_le_one, List.eq_nil_iff_forall_not_mem]
  exact forall_congr' fun n => by rw [h.again, Nat.not_lt]

end Covers

end Census

namespace Model

/-- The names that are reported are those of more than one class. -/
theorem mem_duplicateClassNames (m : Model) (n : String) :
    n ∈ m.duplicateClassNames ↔ 2 ≤ (m.classes.map (·.name)).count n :=
  (Census.Covers.ofNames _).again n

/-- A name that no two classes carry stands for the same class from the front and from the end. -/
theorem lastClass?_eq_class? {m : Model} {n : String} (h : n ∉ m.duplicateClassNames) :
    m.lastClass? n = m.class? n := by
  have hcount : (m.classes.map (·.name)).count n = (m.classes.filter (·.name = n)).length := by
    rw [List.count_eq_countP, List.countP_map, List.countP_eq_length_filter]
    rfl
  rw [mem_duplicateClassNames, hcount] at h
  unfold lastClass? class?
  rw [← List.getLast?_filter, ← List.head?_filter]
  generalize m.classes.filter (·.name = n) = found at h ⊢
  match found with
  | [] => rfl
  | [c] => rfl
  | c :: d :: rest => exact absurd (by simp) h

/-! ### What a name finds -/

variable {m m' : Model} {n : String} {i : ℕ}

/-- A name finds the very class at a place, and not only one that is equal to it: whatever the
classes hold besides their names, the one that is found is the one that stands there. -/
def FindsAt (m : Model) (name : String) (place : ℕ) : Prop :=
  ∀ m' : Model, m'.classes.map (·.name) = m.classes.map (·.name) →
    ∃ c, m'.classes[place]? = some c ∧ m'.class? name = some c

theorem class?_of_names (h : m'.classes.map (·.name) = m.classes.map (·.name)) (n : String) :
    m'.class? n = (m.classes.findIdx? (·.name = n)).bind (m'.classes[·]?) := by
  have hplace (m : Model) : m.classes.findIdx? (·.name = n) =
      (m.classes.map (·.name)).findIdx? (· = n) := by
    rw [List.findIdx?_map]
    rfl
  rw [class?, List.find?_eq_bind_findIdx?_getElem?, hplace m', h, hplace m]

/-- Classes of the same names, each with as many attributes as there are classes before it. -/
def numbered (m : Model) : Model :=
  { m with
    classes := m.classes.mapIdx fun i c => { c with attributes := .replicate i ⟨"", "", none⟩ } }

theorem names_numbered (m : Model) :
    m.numbered.classes.map (·.name) = m.classes.map (·.name) := by
  refine List.ext_getElem? fun i => ?_
  simp [numbered, Function.comp_def]

theorem length_of_numbered {c : Class} (h : m.numbered.classes[i]? = some c) :
    c.attributes.length = i := by
  obtain ⟨d, -, rfl⟩ : ∃ d, m.classes[i]? = some d ∧ _ = c := by simpa [numbered] using h
  exact List.length_replicate

theorem findsAt_iff : m.FindsAt n i ↔ m.classes.findIdx? (·.name = n) = some i := by
  constructor
  · intro h
    -- The attributes of a numbered class tell its place, so the class at `i` is the one found.
    obtain ⟨c, hc, hfound⟩ := h m.numbered m.names_numbered
    rw [class?_of_names m.names_numbered] at hfound
    obtain ⟨j, hj, hjc⟩ := Option.bind_eq_some_iff.1 hfound
    rw [hj, ← length_of_numbered hc, length_of_numbered hjc]
  · intro h m' hnames
    obtain ⟨hi, -⟩ := List.findIdx?_eq_some_iff_getElem.1 h
    have hlength : m'.classes.length = m.classes.length := by
      simpa using congrArg List.length hnames
    have hplace : m'.classes[i]? = some (m'.classes.get ⟨i, hlength ▸ hi⟩) :=
      List.getElem?_eq_getElem _
    refine ⟨_, hplace, ?_⟩
    rw [class?_of_names hnames, h, Option.bind_some, hplace]

theorem findsAt_name_iff : (∀ i (hi : i < m.classes.length), m.FindsAt m.classes[i].name i) ↔
    (m.classes.map (·.name)).Nodup := by
  simp only [findsAt_iff, List.findIdx?_eq_some_iff_getElem]
  rw [List.Nodup, List.pairwise_map, List.pairwise_iff_getElem]
  constructor
  · intro h i j hi hj hij
    obtain ⟨_, _, hfirst⟩ := h j hj
    simpa using hfirst i hij
  · intro h i hi
    refine ⟨hi, by simp, fun j hji => ?_⟩
    simpa using h j i (Nat.lt_trans hji hi) hi hji

def secondPlace (m : Model) (name : String) : ℕ := (m.classes.map (·.name)).idxOfNth name 1

/-- The names that are reported are those of two classes or more, each once, and they come in the
order of the second classes that carry them. None is reported just if every class is the very one
that its name finds. -/
theorem duplicateClassNames_ambiguous (m : Model) :
    m.duplicateClassNames.Nodup ∧
    (∀ n, n ∈ m.duplicateClassNames ↔ 2 ≤ (m.classes.map (·.name)).count n) ∧
    (m.duplicateClassNames.Pairwise fun a b => m.secondPlace a < m.secondPlace b) ∧
    (m.duplicateClassNames = [] ↔
      ∀ i (hi : i < m.classes.length), m.FindsAt m.classes[i].name i) := by
  have hcovers : (Census.ofNames (m.classes.map (·.name))).Covers (m.classes.map (·.name)) :=
    Census.Covers.ofNames _
  refine ⟨hcovers.nodup, m.mem_duplicateClassNames, hcovers.order, ?_⟩
  rw [findsAt_name_iff]
  exact hcovers.again_eq_nil_iff

-- `B` is declared first, but `A` comes again before it.
example : (Census.ofNames ["B", "A", "A", "B", "A"]).again = ["A", "B"] := by decide

-- Of two equal classes each is found by value, and the name is ambiguous all the same.
example :
    let ship : Class := ⟨"Ship", "Ship", none, [], []⟩
    let m : Model := ⟨[ship, ship], [], [], [], []⟩
    (∀ c ∈ m.classes, m.class? c.name = some c) ∧ m.duplicateClassNames = ["Ship"] := by
  decide

end Model

end ClassDiagram
