namespace CodePanel.Asset

inductive Entry (α : Type) where
  | loading
  | loaded (asset : α)
  | failed

inductive LoadState where
  | unknown
  | loading
  | loaded
  | failed
deriving DecidableEq

-- A cache of assets that are loaded elsewhere. It has one entry for each identifier that was ever
-- heard of, and keeps the callbacks that wait for all loads to end in the order in which they came.
structure Cache (α κ : Type) where
  entries : List (String × Entry α)
  waiting : List κ
  distinct : (entries.map Prod.fst).Nodup

def Cache.empty : Cache α κ := ⟨[], [], List.nodup_nil⟩

def Entry.state : Entry α → LoadState
  | .loading => .loading
  | .loaded _ => .loaded
  | .failed => .failed

def Entry.isLoading : Entry α → Bool
  | .loading => true
  | _ => false

def lookup? (id : String) : List (String × Entry α) → Option (Entry α)
  | [] => none
  | (other, entry) :: rest => if other = id then some entry else lookup? id rest

def Cache.find? (cache : Cache α κ) (id : String) : Option (Entry α) :=
  lookup? id cache.entries

def Cache.state (cache : Cache α κ) (id : String) : LoadState :=
  match cache.find? id with
  | some entry => entry.state
  | none => .unknown

-- The asset of an identifier, once it is loaded.
def Cache.get? (cache : Cache α κ) (id : String) : Option α :=
  match cache.find? id with
  | some (.loaded asset) => some asset
  | _ => none

-- The number of loads that have not ended.
def Cache.pending (cache : Cache α κ) : Nat :=
  cache.entries.countP (·.2.isLoading)

def Cache.isReady (cache : Cache α κ) : Bool :=
  cache.pending = 0

def Cache.size (cache : Cache α κ) : Nat :=
  cache.entries.length

-- Replaces the entry of an identifier, or adds one.
def putEntry (id : String) (entry : Entry α) : List (String × Entry α) → List (String × Entry α)
  | [] => [(id, entry)]
  | (other, old) :: rest =>
    if other = id then (id, entry) :: rest else (other, old) :: putEntry id entry rest

-- An identifier that is new goes to the end.
theorem names_putEntry (id : String) (entry : Entry α) (entries : List (String × Entry α)) :
    (putEntry id entry entries).map Prod.fst =
      if id ∈ entries.map Prod.fst then entries.map Prod.fst
      else entries.map Prod.fst ++ [id] := by
  induction entries with
  | nil => rfl
  | cons head rest ih =>
    obtain ⟨first, old⟩ := head
    by_cases hfirst : first = id
    · simp [putEntry, hfirst]
    · simp only [putEntry, hfirst, if_false, List.map_cons, ih, List.mem_cons, Ne.symm hfirst,
        false_or]
      split <;> rfl

theorem nodup_putEntry (id : String) (entry : Entry α) {entries : List (String × Entry α)}
    (h : (entries.map Prod.fst).Nodup) : ((putEntry id entry entries).map Prod.fst).Nodup := by
  rw [names_putEntry]
  split
  · exact h
  · next hid =>
    refine List.nodup_append.mpr ⟨h, by simp, ?_⟩
    rintro other hother _ hsame rfl
    rw [List.mem_singleton.mp hsame] at hother
    exact hid hother

def Cache.put (cache : Cache α κ) (id : String) (entry : Entry α) : Cache α κ :=
  ⟨putEntry id entry cache.entries, cache.waiting, nodup_putEntry id entry cache.distinct⟩

-- Takes note of identifiers and tells which of them have to be loaded: those never heard of.
def Cache.request (cache : Cache α κ) : List String → List String × Cache α κ
  | [] => ([], cache)
  | id :: rest =>
    match cache.find? id with
    | some _ => cache.request rest
    | none =>
      let later := (cache.put id .loading).request rest
      (id :: later.1, later.2)

def Cache.isSettled (cache : Cache α κ) (id : String) : Bool :=
  cache.state id = .loaded || cache.state id = .failed

-- Ends a load. What has ended once stays as it is. If this was the last load that was waited for,
-- the waiting callbacks are handed out.
def Cache.settle (cache : Cache α κ) (id : String) (entry : Entry α) : List κ × Cache α κ :=
  if cache.isSettled id then ([], cache)
  else
    let after := cache.put id entry
    if 0 < cache.pending ∧ after.pending = 0 then (after.waiting, { after with waiting := [] })
    else ([], after)

def Cache.markLoaded (cache : Cache α κ) (id : String) (asset : α) : List κ × Cache α κ :=
  cache.settle id (.loaded asset)

def Cache.markFailed (cache : Cache α κ) (id : String) : List κ × Cache α κ :=
  cache.settle id .failed

-- Hands a callback straight back if nothing is loading, and else lets it wait.
def Cache.onReady (cache : Cache α κ) (callback : κ) : Option κ × Cache α κ :=
  if cache.isReady then (some callback, cache)
  else (none, { cache with waiting := cache.waiting ++ [callback] })

-- A short account of the cache.
def Cache.summary (cache : Cache α κ) : String :=
  "ResourceCache \x7b assets: " ++ toString cache.size ++ ", pending: " ++
    toString cache.pending ++ ", ready_callbacks: " ++ toString cache.waiting.length ++ " \x7d"

end CodePanel.Asset
