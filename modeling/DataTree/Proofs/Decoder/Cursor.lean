import DataTree.Proofs.Backend.Views
import DataTree.Proofs.Coding.Decoded
import DataTree.Proofs.Decoder.Discipline

namespace DataTree.Decoding

variable {S U α : Type}

/-- The decoder stands where it stood, and at most the user state is another one. -/
def Stays (d d' : Decoder S U) : Prop := d' = { d with user := d'.user }

instance : Std.Refl (Stays (S := S) (U := U)) := ⟨fun _ => rfl⟩

instance : Trans (Stays (S := S) (U := U)) Stays Stays where
  trans {d d' d''} h h' := by
    rw [Stays] at h h' ⊢
    rw [h', h]

theorem stays_inside {body : Decoding S U α} (h : Keeps Kept body) (key : Option Key) (node : S) :
    Keeps Stays (inside key node body) := by
  intro d
  have hleave {d' : Decoder S U} (hkept : Kept (d.enter key node) d') :
      Stays d (d'.leave key) := by
    rw [leave_of_kept hkept]
    rfl
  have hbody := h (d.enter key node)
  rw [inside]
  cases hrun : body (d.enter key node) with
  | ok x d' =>
      rw [hrun] at hbody
      exact hleave hbody
  | error e d' =>
      rw [hrun] at hbody
      exact hleave hbody

/-- An error that comes out of a level has the path of the level or lies below it, unless the body
raised it as it is. -/
theorem inside_error {body : Decoding S U α} (h : Keeps Kept body) {key : Key} {node : S}
    {d d' : Decoder S U} {e : Error} (he : inside (some key) node body d = .error e d') :
    e.path = d.path ++ [key] ∨ ∃ d₂, body (d.enter (some key) node) = .error e d₂ := by
  have hbody := h (d.enter (some key) node)
  rw [inside] at he
  cases hrun : body (d.enter (some key) node) with
  | ok x d₂ =>
      rw [hrun] at he
      cases he
  | error e₂ d₂ =>
      rw [hrun] at he hbody
      cases he
      rw [Error.orAt]
      split
      next => exact .inl hbody.path
      next => exact .inr ⟨d₂, rfl⟩

/-- The operations of a list level, with the bodies that they run on an item. -/
inductive ItemOp (S U : Type) : Type → Type 1
  | decode {α : Type} (body : Decoding S U α) : ItemOp S U α
  | decodeOptional {α : Type} (body : Decoding S U α) : ItemOp S U (Option α)
  | decodeNil : ItemOp S U Bool
  | nestedKeyed {α : Type} (body : Decoding S U α) : ItemOp S U α
  | nestedSequential {α : Type} (body : Decoding S U α) : ItemOp S U α

namespace ItemOp

/-- An operation that succeeded uses its item up, except that one that is not null is not passed
over. -/
def consumes : ItemOp S U α → α → Bool
  | decodeNil, passed => passed
  | _, _ => true

def used (op : ItemOp S U α) : EStateM.Result Error (Decoder S U) α → Nat
  | .ok x _ => if op.consumes x then 1 else 0
  | .error _ _ => 0

theorem used_le (op : ItemOp S U α) (result : EStateM.Result Error (Decoder S U) α) :
    op.used result ≤ 1 := by
  cases result with
  | ok x d =>
      rw [used]
      split <;> decide
  | error e d => exact Nat.zero_le 1

variable [Backend S]

def run : ItemOp S U α → Decoding S U α
  | decode body => Sequential.decode body
  | decodeOptional body => Sequential.decodeOptional body
  | decodeNil => Sequential.decodeNil
  | nestedKeyed body => Sequential.nestedKeyed body
  | nestedSequential body => Sequential.nestedSequential body

def on (index : Nat) (item : S) : ItemOp S U α → Decoding S U α
  | decode body => inside (some (.index index)) item body
  | decodeOptional body =>
    if Backend.isNull item then return none
    else return some (← inside (some (.index index)) item body)
  | decodeNil => return Backend.isNull item
  | nestedKeyed body => inside (some (.index index)) item (do keyed; body)
  | nestedSequential body => inside (some (.index index)) item (do sequential; body)

def Sound : ItemOp S U α → Prop
  | decode body | decodeOptional body | nestedKeyed body | nestedSequential body => Run body
  | decodeNil => True

omit [Backend S] in
/-- The body fails with an error on an item, behind the container that it asked for. -/
def Raises (index : Nat) (item : S) (d : Decoder S U) (e : Error) : ItemOp S U α → Prop
  | decode body | decodeOptional body => ∃ d',
    body (d.enter (some (.index index)) item) = .error e d'
  | decodeNil => False
  | nestedKeyed body | nestedSequential body => ∃ d',
    body { d.enter (some (.index index)) item with current := claimed item 0 } = .error e d'

end ItemOp

/-- The decoder with the cursor at another index, and with another user state. -/
def onward (d : Decoder S U) (cursor : Nat) (user : U) : Decoder S U :=
  { d with current := { d.current with cursor }, user }

/-- The level is a list, with the cursor at an index. -/
structure Reading (items : List S) [Backend S] (index : Nat) (d : Decoder S U) : Prop where
  items : Backend.items d.current.node = some items
  cursor : d.current.cursor = index

namespace Reading

variable [Backend S] {items : List S} {index : Nat} {d : Decoder S U}

theorem count (h : Reading items index d) : d.current.count = items.length := by
  rw [Decoder.Level.count, h.items]
  rfl

theorem next_item [LawfulBackend S] (h : Reading items index d) {item : S}
    (hitem : items[index]? = some item) : Sequential.next d = .ok item d := by
  obtain ⟨hlt, -⟩ := List.getElem?_eq_some_iff.1 hitem
  rw [Sequential.next_eq, if_neg (by rw [h.count, h.cursor]; exact Nat.not_le_of_lt hlt), h.cursor,
    LawfulBackend.item_of_items h.items, hitem]

theorem next_end (h : Reading items items.length d) : Sequential.next d =
    .error ⟨.outOfBounds items.length items.length, d.path ++ [.index items.length]⟩ d := by
  have hend : d.current.count ≤ d.current.cursor := Nat.le_of_eq (h.count.trans h.cursor.symm)
  rw [Sequential.next_eq, if_pos hend, h.count, h.cursor]
  rfl

theorem run_item [LawfulBackend S] (h : Reading items index d) {item : S}
    (hitem : items[index]? = some item) (op : ItemOp S U α) : op.run d = (do
      let x ← op.on index item
      if op.consumes x then Sequential.advance
      return x : Decoding S U α) d := by
  have hindex : Sequential.currentIndex d = .ok index d := by
    rw [← h.cursor]
    rfl
  have hnext := h.next_item hitem
  have hdecode {β : Type} (body : Decoding S U β) : Sequential.decode body d = (do
      let x ← inside (some (.index index)) item body
      Sequential.advance
      return x : Decoding S U β) d := by
    simp only [Sequential.decode, run_bind, hindex, hnext]
  cases op with
  | decode body => exact hdecode body
  | decodeOptional body =>
      show Sequential.decodeOptional body d = _
      rw [Sequential.decodeOptional, run_bind_of_ok hnext, ItemOp.on]
      split
      next => rfl
      next =>
        rw [run_bind_congr (hdecode body), bind_assoc, bind_assoc]
        rfl
  | decodeNil =>
      simp only [ItemOp.run, Sequential.decodeNil, run_bind, hnext]
      rfl
  | nestedKeyed body => exact hdecode _
  | nestedSequential body => exact hdecode _

theorem run_end (h : Reading items items.length d) (op : ItemOp S U α) : op.run d =
    .error ⟨.outOfBounds items.length items.length, d.path ++ [.index items.length]⟩ d := by
  have hnext := h.next_end
  have hdecode {β : Type} (body : Decoding S U β) : Sequential.decode body d =
      .error ⟨.outOfBounds items.length items.length, d.path ++ [.index items.length]⟩ d := by
    simp [Sequential.decode, hnext]
  cases op with
  | decode body => exact hdecode body
  | decodeOptional body => simp [ItemOp.run, Sequential.decodeOptional, hnext]
  | decodeNil => simp [ItemOp.run, Sequential.decodeNil, hnext]
  | nestedKeyed body => exact hdecode _
  | nestedSequential body => exact hdecode _

end Reading

section Steps

variable [Backend S] {items : List S} {index : Nat} {d : Decoder S U} {item : S}

theorem ItemOp.stays {op : ItemOp S U α} (h : op.Sound) (index : Nat) (item : S) :
    Keeps Stays (op.on index item) := by
  cases op with
  | decode body => exact stays_inside h.keeps _ item
  | decodeOptional body =>
      rw [ItemOp.on]
      split
      next => exact .pure none
      next => exact (stays_inside h.keeps _ item).bind fun x => .pure (some x)
  | decodeNil => exact .pure _
  | nestedKeyed body =>
      exact stays_inside (.bind (keeps_request .keyed) fun _ => h.keeps) _ item
  | nestedSequential body =>
      exact stays_inside (.bind (keeps_request .sequential) fun _ => h.keeps) _ item

theorem inside_granted_error {c : Container} {body : Decoding S U α} (h : Keeps Kept body)
    {e : Error} {d' : Decoder S U}
    (he : inside (some (.index index)) item (do request c; body) d = .error e d') :
    e.path = d.path ++ [.index index] ∨ ∃ d₂,
      body { d.enter (some (.index index)) item with current := claimed item 0 } = .error e d₂ := by
  rcases inside_error (.bind (keeps_request c) fun _ => h) he with hpath | ⟨d₂, hrun⟩
  · exact .inl hpath
  · rcases run_bind_eq_error.1 hrun with hrefused | ⟨_, d₁, hgranted, hbody⟩
    · exact .inl (path_of_request_error hrefused)
    · rcases request_cases c (d.enter (some (.index index)) item) with ⟨-, -, hok⟩ | ⟨-, e', herror⟩
      · cases hok.symm.trans hgranted
        exact .inr ⟨d₂, hbody⟩
      · cases herror.symm.trans hgranted

theorem ItemOp.error_on {op : ItemOp S U α} (h : op.Sound) {e : Error} {d' : Decoder S U}
    (he : op.on index item d = .error e d') :
    e.path = d.path ++ [.index index] ∨ op.Raises index item d e := by
  cases op with
  | decode body => exact inside_error h.keeps he
  | decodeOptional body =>
      rw [ItemOp.on] at he
      split at he
      next => cases he
      next =>
        rcases run_bind_eq_error.1 he with hinside | ⟨x, d₁, -, hpure⟩
        · exact inside_error h.keeps hinside
        · cases hpure
  | decodeNil => cases he
  | nestedKeyed body => exact inside_granted_error (c := .keyed) h.keeps he
  | nestedSequential body => exact inside_granted_error (c := .sequential) h.keeps he

theorem Reading.run_eq [LawfulBackend S] (h : Reading items index d)
    (hitem : items[index]? = some item) {op : ItemOp S U α} (hop : op.Sound) :
    op.run d = match op.on index item d with
      | .ok x d' => .ok x (onward d (index + if op.consumes x then 1 else 0) d'.user)
      | .error e d' => .error e (onward d index d'.user) := by
  have hstays := ItemOp.stays hop index item d
  rw [h.run_item hitem op]
  obtain rfl := h.cursor
  cases hrun : op.on d.current.cursor item d with
  | ok x d' =>
      rw [hrun] at hstays
      obtain ⟨user, rfl⟩ : ∃ user, d' = { d with user } := ⟨d'.user, hstays⟩
      cases hused : op.consumes x <;> simp only [run_bind, hrun, hused] <;> rfl
  | error e d' =>
      rw [hrun] at hstays
      simp only [run_bind, hrun]
      exact congrArg (EStateM.Result.error e) hstays

theorem Reading.decode_eq [LawfulBackend S] (h : Reading items index d)
    (hitem : items[index]? = some item) {body : Decoding S U α} (hbody : Run body) :
    Sequential.decode body d = match inside (some (.index index)) item body d with
      | .ok x d' => .ok x (onward d (index + 1) d'.user)
      | .error e d' => .error e (onward d index d'.user) := by
  have hop : (ItemOp.decode body).Sound := hbody
  exact h.run_eq hitem hop

theorem Reading.after_run [LawfulBackend S] (h : Reading items index d)
    (hitem : items[index]? = some item) {op : ItemOp S U α} (hop : op.Sound) :
    ∃ user, after (op.run d) = onward d (index + op.used (op.run d)) user := by
  rw [h.run_eq hitem hop]
  cases op.on index item d <;> exact ⟨_, rfl⟩

end Steps

section Histories

variable [Backend S]

/-- What was done at a list level since it was opened, one operation after the other, failures
included, with work on the user state in between. The number is that of the items used up. -/
inductive History (d : Decoder S U) : Nat → Decoder S U → Prop
  | opened : History d 0 d
  | step {n : Nat} {d' : Decoder S U} {α : Type} (op : ItemOp S U α) : History d n d' → op.Sound →
      History d (n + op.used (op.run d')) (after (op.run d'))
  | aside {n : Nat} {d' : Decoder S U} (user : U) : History d n d' →
      History d n { d' with user }

variable {node : S} {items : List S} {d d' : Decoder S U} {n : Nat}

theorem Reading.onward (h : Reading items n d) (index : Nat) (user : U) :
    Reading items index (onward d index user) := ⟨h.items, rfl⟩

theorem History.decode {body : Decoding S U α} (h : History d n d') (hbody : Run body) :
    match Sequential.decode body d' with
    | .ok _ d₁ => History d (n + 1) d₁
    | .error _ d₁ => History d n d₁ := by
  have hstep := h.step (.decode body) hbody
  change History d (n + ItemOp.used _ (Sequential.decode body d'))
    (after (Sequential.decode body d')) at hstep
  cases hrun : Sequential.decode body d' <;> rw [hrun] at hstep <;> exact hstep

theorem History.position [LawfulBackend S] (hopen : Reading items 0 d) (h : History d n d') :
    n ≤ items.length ∧ ∃ user, d' = onward d n user := by
  induction h with
  | opened =>
      exact ⟨Nat.zero_le _, d.user, by rw [Decoding.onward, ← hopen.cursor]⟩
  | aside user _ ih =>
      obtain ⟨hle, user', rfl⟩ := ih
      exact ⟨hle, user, rfl⟩
  | @step n d' α op _ hop ih =>
      obtain ⟨hle, user, rfl⟩ := ih
      have hreading := hopen.onward n user
      rcases Nat.lt_or_eq_of_le hle with hlt | rfl
      · obtain ⟨user', hafter⟩ := hreading.after_run (List.getElem?_eq_getElem hlt) hop
        exact ⟨Nat.le_trans (Nat.add_le_add_left (op.used_le _) n) hlt, user', by rw [hafter]; rfl⟩
      · rw [hreading.run_end op]
        exact ⟨Nat.le_refl _, user, rfl⟩

theorem History.take {body : Decoding S U α} (hbody : Run body) {k : Nat} (h : History d n d')
    (hk : n + k = items.length) :
    match Sequential.take body k d' with
    | .ok xs d'' => xs.length = k ∧ History d items.length d''
    | .error _ d'' => ∃ i, n ≤ i ∧ i < items.length ∧ History d i d'' := by
  induction k generalizing n d' with
  | zero =>
      obtain rfl : n = items.length := hk
      exact ⟨rfl, h⟩
  | succ k ih =>
      have hstep := h.decode hbody
      rw [Sequential.take]
      cases hrun : Sequential.decode body d' with
      | error e d₁ =>
          rw [hrun] at hstep
          simp only [run_bind, hrun]
          exact ⟨n, Nat.le_refl n, by omega, hstep⟩
      | ok x d₁ =>
          rw [hrun] at hstep
          have hrest := ih hstep (by omega)
          simp only [run_bind, hrun]
          cases htake : Sequential.take body k d₁ with
          | ok xs d₂ =>
              rw [htake] at hrest
              exact ⟨congrArg (· + 1) hrest.1, hrest.2⟩
          | error e d₂ =>
              rw [htake] at hrest
              obtain ⟨i, hi, hlt, hhistory⟩ := hrest
              exact ⟨i, by omega, hlt, hhistory⟩

theorem Reading.rest_take (h : Reading items n d) (body : Decoding S U α) :
    Sequential.rest body d = Sequential.take body (items.length - n) d := by
  rw [← h.count, ← h.cursor]
  rfl

theorem Reading.rest_eq [LawfulBackend S] (h : Reading items n d) {body : Decoding S U α}
    (hbody : Run body) : Sequential.rest body d = (do
      if ← Sequential.isAtEnd then return []
      else return (← Sequential.decode body) :: (← Sequential.rest body) :
        Decoding S U (List α)) d := by
  have hend : Sequential.isAtEnd d = .ok (decide (items.length ≤ n)) d := by
    rw [← h.count, ← h.cursor]
    rfl
  rw [h.rest_take, run_bind_of_ok hend]
  by_cases hn : items.length ≤ n
  · rw [decide_eq_true hn, Nat.sub_eq_zero_of_le hn]
    rfl
  · have hlt := Nat.lt_of_not_le hn
    have hstep := h.decode_eq (List.getElem?_eq_getElem hlt) hbody
    have hlength : items.length - n = items.length - (n + 1) + 1 := by omega
    rw [decide_eq_false hn, hlength, Sequential.take, if_neg Bool.false_ne_true]
    cases hrun : Sequential.decode body d with
    | error e d₁ => simp only [run_bind, hrun]
    | ok x d₁ =>
        have hreading : Reading items (n + 1) d₁ := by
          rw [hrun] at hstep
          split at hstep
          next =>
            cases hstep
            exact h.onward (n + 1) _
          next => cases hstep
        rw [run_bind_of_ok hrun, run_bind_of_ok hrun]
        exact run_bind_congr (hreading.rest_take body).symm

/-- How a list level is worked through, by operations with bodies of any kind, some of which fail,
from where it was opened with its cursor at the first item. -/
structure VisitsInOrder (S U : Type) [Backend S] : Prop where
  opened : ∀ {node : S} {items : List S} {d : Decoder S U}, Backend.items node = some items →
    d.current = .fresh node → sequential d = .ok () { d with current := claimed node 0 } ∧
      Reading items 0 { d with current := claimed node 0 }
  /-- The cursor never leaves the list, and is the number of the items used up. -/
  position : ∀ {items : List S} {d d' : Decoder S U} {n : Nat}, Reading items 0 d →
    History d n d' → n ≤ items.length ∧ Sequential.currentIndex d' = .ok n d' ∧
      Sequential.count d' = .ok items.length d' ∧ ∃ user, d' = onward d n user
  /-- An operation reads the item at the cursor, and moves on only if it succeeds. -/
  reads : ∀ {items : List S} {d d' : Decoder S U} {n : Nat} {item : S}, Reading items 0 d →
    History d n d' → items[n]? = some item → ∀ {α : Type} {op : ItemOp S U α}, op.Sound →
      op.run d' = match op.on n item d' with
        | .ok x d'' => .ok x (onward d' (n + if op.consumes x then 1 else 0) d''.user)
        | .error e d'' => .error e (onward d' n d''.user)
  /-- Its errors are placed at the item, unless it is the body that raised them. -/
  error_path : ∀ {items : List S} {d d' : Decoder S U} {n : Nat} {item : S}, Reading items 0 d →
    History d n d' → items[n]? = some item → ∀ {α : Type} {op : ItemOp S U α}, op.Sound →
      ∀ {e : Error} {d'' : Decoder S U}, op.run d' = .error e d'' →
        e.path = d.path ++ [.index n] ∨ op.Raises n item d' e
  /-- Of a type made of primitives, lists, options and maps, all errors lie at the item or below. -/
  typed : ∀ {items : List S} {d d' : Decoder S U} {n : Nat} {item : S}, Reading items 0 d →
    History d n d' → items[n]? = some item → ∀ {D : Empty → Type}
      (own : (y : Empty) → Decoding S U (D y)) (t : Codable Empty),
      Sequential.decode (t.decode own) d' = match t.read (fun y => y.elim) item with
        | .ok x => .ok x (onward d' (n + 1) d'.user)
        | .error e => .error (e.within (d.path ++ [.index n])) (onward d' n d'.user)
  /-- Behind the last item every operation fails, and changes nothing. -/
  ended : ∀ {items : List S} {d d' : Decoder S U}, Reading items 0 d →
    History d items.length d' → ∀ {α : Type} (op : ItemOp S U α), op.run d' =
      .error ⟨.outOfBounds items.length items.length, d.path ++ [.index items.length]⟩ d'
  /-- Decoding all items is the loop that goes on until it is at the end. -/
  loop : ∀ {items : List S} {d d' : Decoder S U} {n : Nat}, Reading items 0 d →
    History d n d' → ∀ {α : Type} {body : Decoding S U α}, Run body →
      Sequential.rest body d' = (do
        if ← Sequential.isAtEnd then return []
        else return (← Sequential.decode body) :: (← Sequential.rest body) :
          Decoding S U (List α)) d'
  /-- It decodes as many items as there are, or stops at one that fails. -/
  list : ∀ {items : List S} {d : Decoder S U}, Backend.items d.current.node = some items →
    d.current = .fresh d.current.node → ∀ {X : Type} {D : X → Type}
      {own : (x : X) → Decoding S U (D x)}, (∀ x, Run (own x)) → ∀ t : Codable X,
        match (Codable.list t).decode own d with
        | .ok xs d' => xs.length = items.length ∧
            ∃ user, d' = { d with current := claimed d.current.node items.length, user }
        | .error _ d' => ∃ i < items.length, ∃ user,
            d' = { d with current := claimed d.current.node i, user }

theorem sequential_fresh (hitems : Backend.items node = some items)
    (hd : d.current = .fresh node) :
    sequential d = .ok () { d with current := claimed node 0 } := by
  rw [← claim_fresh .sequential hd, sequential_eq, hd]
  simp only [Decoder.Level.fresh, hitems]

theorem visitsInOrder (S U : Type) [Backend S] [LawfulBackend S] : VisitsInOrder S U where
  opened hitems hd := ⟨sequential_fresh hitems hd, hitems, rfl⟩
  position hopen h := by
    obtain ⟨hle, user, rfl⟩ := h.position hopen
    refine ⟨hle, rfl, ?_, user, rfl⟩
    rw [← (hopen.onward _ user).count]
    rfl
  reads hopen h hitem α op hop := by
    obtain ⟨-, user, rfl⟩ := h.position hopen
    exact (hopen.onward _ user).run_eq hitem hop
  error_path hopen h hitem α op hop e d'' he := by
    obtain ⟨-, user, rfl⟩ := h.position hopen
    rw [(hopen.onward _ user).run_eq hitem hop] at he
    split at he
    next => cases he
    next hrun =>
      cases he
      exact ItemOp.error_on hop hrun
  typed {items d d' n item} hopen h hitem D own t := by
    obtain ⟨-, user, rfl⟩ := h.position hopen
    have hgives : (t.decode own).Gives item (t.read (fun y => y.elim) item) :=
      Codable.decode_gives (fun y => y.elim) t item
    have hrun : Run (t.decode own) := Codable.run_decode (fun y => y.elim) t
    rw [(hopen.onward n user).decode_eq hitem hrun, hgives.inside]
    cases t.read (fun y => y.elim) item with
    | ok x => rfl
    | error e =>
        show EStateM.Result.error ((e.within [.index n]).within d.path) _ = _
        rw [Error.within_within]
  ended hopen h α op := by
    obtain ⟨-, user, rfl⟩ := h.position hopen
    exact (hopen.onward _ user).run_end op
  loop hopen h α body hbody := by
    obtain ⟨-, user, rfl⟩ := h.position hopen
    exact (hopen.onward _ user).rest_eq hbody
  list {items d} hitems hd X D own hown t := by
    let start : Decoder S U := { d with current := claimed d.current.node 0 }
    have hopen : Reading items 0 start := ⟨hitems, rfl⟩
    have hlist : (Codable.list t).decode own d =
        Sequential.take (t.decode own) items.length start :=
      (run_bind_of_ok (sequential_fresh hitems hd)).trans (hopen.rest_take _)
    have htake := (History.opened (d := start)).take (Codable.run_decode hown t)
      (Nat.zero_add items.length)
    rw [hlist]
    cases hrun : Sequential.take (t.decode own) items.length start with
    | ok xs d' =>
        rw [hrun] at htake
        obtain ⟨-, user, rfl⟩ := htake.2.position hopen
        exact ⟨htake.1, user, rfl⟩
    | error e d' =>
        rw [hrun] at htake
        obtain ⟨i, -, hlt, h⟩ := htake
        obtain ⟨-, user, rfl⟩ := h.position hopen
        exact ⟨i, hlt, user, rfl⟩

end Histories

/-- Whatever the items are decoded as, and whatever fails at them, the cursor takes them one by one
and in order. -/
theorem visits_in_order {U : Type} :
    VisitsInOrder Value U ∧ VisitsInOrder Json U ∧ VisitsInOrder Xml.Node U :=
  ⟨visitsInOrder Value U, visitsInOrder Json U, visitsInOrder Xml.Node U⟩

/-- A text that is no flag is still the next item, and the only one. -/
theorem visits_in_order_retried :
    let node : Value := .array [.leaf (.string "a")]
    let d : Decoder Value Unit :=
      { Decoder.start node [] .identity () with current := claimed node 0 }
    let flag : ItemOp Value Unit Bool := .decode (do single; Single.decodePrimitive .bool)
    let text : ItemOp Value Unit String := .decode (do single; Single.decodePrimitive .string)
    let failed := after (flag.run d)
    let last := after (text.run failed)
    text.run failed = .ok "a" (onward failed 1 ()) ∧
      Sequential.currentIndex last = .ok 1 last ∧
      ∀ {α : Type} (op : ItemOp Value Unit α),
        op.run last = .error ⟨.outOfBounds 1 1, [.index 1]⟩ last := by
  intro node d flag text failed last
  obtain ⟨⟨opened, position, reads, -, -, ended, -, -⟩, -, -⟩ := visits_in_order (U := Unit)
  have hitems : Backend.items node = some [.leaf (.string "a")] := rfl
  obtain ⟨-, hopen⟩ := opened (d := .start node [] .identity ()) hitems rfl
  have hflag : flag.Sound := .bind (.op (.request .single)) fun _ => .op (.primitive .bool)
  have htext : text.Sound := .bind (.op (.request .single)) fun _ => .op (.primitive .string)
  have hfailed : History d 0 failed := History.opened.step flag hflag
  have hlast : History d 1 last := hfailed.step text htext
  obtain ⟨-, hindex, -, -⟩ := position hopen hlast
  exact ⟨reads hopen hfailed rfl htext, hindex, ended hopen hlast⟩

/-- The first text is no flag and no null, and still is the next item; the null is passed over. -/
example :
    let word (s : String) : Value := .leaf (.string s)
    let node : Value := .array [word "a", Value.null, word "b"]
    let text : Decoding Value Unit String := do single; Single.decodePrimitive .string
    let flag : Decoding Value Unit Bool := do single; Single.decodePrimitive .bool
    Decoding.run .identity () node (do
      sequential
      let failed := !(← Script.attempt (Sequential.decode flag)).toBool
      let null := [← Sequential.decodeNil]
      let first ← Sequential.decode text
      let passed := [← Sequential.decodeNil]
      let index ← Sequential.currentIndex
      return (failed, null ++ passed, first :: (← Sequential.rest text), index)) =
    (.ok (true, [false, true], ["a", "b"], 2), ()) := rfl

end DataTree.Decoding
