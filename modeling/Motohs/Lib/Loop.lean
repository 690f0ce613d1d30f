import Mathlib.Data.List.Forall2

/-! A loop that reads each item, which may throw, and keeps what it has read. -/

namespace Lib

/-- A step that may throw, and what comes after it. -/
theorem bind_eq_ok_iff {Error : Type w} {First Final : Type v} {first : Except Error First}
    {next : First → Except Error Final} {final : Final} : (first >>= next) = .ok final ↔
      ∃ result, first = .ok result ∧ next result = .ok final := by
  cases first with
  | error thrown => simp [bind, Except.bind]
  | ok result => simp [bind, Except.bind]

/-- A list of steps that may throw gives a list of their results. -/
theorem mapM_eq_ok_iff {Item : Type u} {Error Result : Type v} {read : Item → Except Error Result}
    {items : List Item} {results : List Result} : items.mapM read = .ok results ↔
      List.Forall₂ (fun item result => read item = .ok result) items results := by
  induction items generalizing results with
  | nil =>
    rw [List.mapM_nil, List.forall₂_nil_left_iff]
    constructor
    · intro done
      cases done
      rfl
    · rintro rfl
      rfl
  | cons item rest ih =>
    simp only [List.mapM_cons, bind_eq_ok_iff, List.forall₂_cons_left_iff]
    constructor
    · rintro ⟨result, here, others, later, same⟩
      cases same
      exact ⟨result, others, here, ih.mp later, rfl⟩
    · rintro ⟨result, others, here, later, rfl⟩
      exact ⟨result, here, others, ih.mpr later, rfl⟩

variable {Item : Type u} {Result State Error : Type v} {read : Item → Except Error Result}
variable {keep : State → Result → State}

def readLoop (read : Item → Except Error Result) (keep : State → Result → State) (start : State)
    (items : List Item) : Except Error State :=
  items.foldlM (fun state item => do
    let result ← read item
    pure (keep state result)) start

/-- The loop comes to its end just when every item can be read. -/
theorem readLoop_eq_ok_iff {items : List Item} : readLoop read keep start items = .ok final ↔
    ∃ results, List.Forall₂ (fun item result => read item = .ok result) items results ∧
      results.foldl keep start = final := by
  induction items generalizing start with
  | nil =>
    constructor
    · intro done
      cases done
      exact ⟨[], .nil, rfl⟩
    · rintro ⟨results, each, rfl⟩
      cases each
      rfl
  | cons item rest ih =>
    unfold readLoop at ih ⊢
    rw [List.foldlM_cons]
    constructor
    · intro done
      cases here : read item with
      | error thrown =>
        rw [here] at done
        cases done
      | ok result =>
        rw [here] at done
        obtain ⟨results, each, kept⟩ := ih.mp done
        exact ⟨result :: results, .cons here each, kept⟩
    · rintro ⟨results, each, kept⟩
      cases each with
      | cons here each =>
        rw [here]
        exact ih.mpr ⟨_, each, kept⟩

theorem read_of_readLoop {items : List Item} (done : readLoop read keep start items = .ok final)
    (member : item ∈ items) : ∃ result, read item = .ok result := by
  obtain ⟨results, each, kept⟩ := readLoop_eq_ok_iff.mp done
  clear done kept
  induction each with
  | nil => cases member
  | cons here _ ih =>
    rcases List.mem_cons.mp member with rfl | later
    · exact ⟨_, here⟩
    · exact ih later

theorem mem_of_read {items : List Item} {results : List Result}
    (each : List.Forall₂ (fun item result => read item = .ok result) items results)
    (member : result ∈ results) : ∃ item ∈ items, read item = .ok result := by
  induction each with
  | nil => cases member
  | cons here _ ih =>
    rcases List.mem_cons.mp member with rfl | later
    · exact ⟨_, List.mem_cons_self, here⟩
    · obtain ⟨item, among, read⟩ := ih later
      exact ⟨item, List.mem_cons_of_mem _ among, read⟩

end Lib
