import RespClient.Proofs.Connection.Effect

/-!
# Proofs/Session/Topics — the server's topics, once all that is due is done

    what the server holds now ──▸ due subscriptions and their ends, in order ──▸ what it will hold

The registry runs ahead of the server: it changes when an order is placed, the server when the order is
carried out.  So the registry is compared with what the server *will* hold (`holdsAfter`), from both
sides (`Agrees`): a topic it may come to hold is registered, and the topic of a registration will be
held even if the server accepts no other subscription.  The first half has an exception, the topics
that are *taken*: a refusal took their last registration.
-/

namespace RespClient

variable {κ α : Type}

/-! ## What the server will hold -/

/-- **Whether a topic is held after an order**, if it was `held` before; `accepts` says whose
subscriptions the server accepts. -/
def Order.leaves (accepts : Handle → Prop) (topic : Topic) (held : Prop) : Order κ → Prop
  | subscribe h _ => h.topic = topic ∧ accepts h ∨ held
  | unsubscribe t _ => t ≠ topic ∧ held
  | _ => held

/-- **Whether a topic is held after some orders.** -/
def holdsAfter (accepts : Handle → Prop) (topic : Topic) (held : Prop) : List (Order κ) → Prop
  | [] => held
  | o :: os => holdsAfter accepts topic (o.leaves accepts topic held) os

theorem holdsAfter_append (accepts : Handle → Prop) (topic : Topic) (held : Prop)
    (os os' : List (Order κ)) :
    holdsAfter accepts topic held (os ++ os')
      = holdsAfter accepts topic (holdsAfter accepts topic held os) os' := by
  induction os generalizing held with
  | nil => rfl
  | cons o os ih => exact ih _

theorem leaves_mono {accepts : Handle → Prop} {topic : Topic} {held held' : Prop}
    (h : held → held') (o : Order κ) :
    o.leaves accepts topic held → o.leaves accepts topic held' := by
  cases o with
  | subscribe hd k => exact Or.imp_right h
  | unsubscribe t k => exact And.imp_right h
  | _ => exact h

/-- What is held stays held, if more was held before. -/
theorem holdsAfter_mono {accepts : Handle → Prop} {topic : Topic} {held held' : Prop}
    (h : held → held') (os : List (Order κ)) :
    holdsAfter accepts topic held os → holdsAfter accepts topic held' os := by
  induction os generalizing held held' with
  | nil => exact h
  | cons o os ih => exact ih (leaves_mono h o)

/-- Without an end of it among the orders, a topic that is held stays held. -/
theorem holdsAfter_of_held {accepts : Handle → Prop} {topic : Topic} {held : Prop} (h : held)
    {os : List (Order κ)} (hu : ∀ o ∈ os, ¬ o.isUnsubscribe) :
    holdsAfter accepts topic held os := by
  induction os generalizing held with
  | nil => exact h
  | cons o os ih =>
    refine ih ?_ fun o' ho' => hu o' (List.mem_cons_of_mem o ho')
    cases o with
    | subscribe hd k => exact .inr h
    | unsubscribe t k => exact absurd rfl (hu _ List.mem_cons_self)
    | _ => exact h

/-! ## The registry and the server -/

/-- **The registry agrees with the server**, which holds `seen` and has the orders to carry out. -/
structure Agrees (r : Registry α) (seen : List Topic) (orders : List (Order κ))
    (taken : List Topic) : Prop where
  /-- A topic that the server may come to hold is registered, unless a refusal took it. -/
  guarded : ∀ t, holdsAfter (fun _ => True) t (t ∈ seen) orders → r.contains t ∨ t ∈ taken
  /-- The topic of a registration will be held, even if no other subscription is accepted. -/
  backed : ∀ h, r.Lives h → holdsAfter (· = h) h.topic (h.topic ∈ seen) orders
  gone : ∀ t ∈ taken, ¬ r.contains t

/-- The topics that stay taken: one that is registered again is no longer. -/
def stillTaken (r : Registry α) (taken : List Topic) : List Topic :=
  taken.filter fun t => !r.contains t

theorem mem_stillTaken {r : Registry α} {taken : List Topic} {t : Topic} :
    t ∈ stillTaken r taken ↔ t ∈ taken ∧ ¬ r.contains t := by
  simp [stillTaken]

theorem registered_or_taken {r : Registry α} {taken : List Topic} {t : Topic}
    (h : r.contains t ∨ t ∈ taken) : r.contains t ∨ t ∈ stillTaken r taken := by
  by_cases hc : r.contains t
  · exact .inl hc
  · exact .inr (mem_stillTaken.mpr ⟨h.resolve_left hc, hc⟩)

variable {r r' : Registry α} {next next' : Nat} {seen taken : List Topic} {orders : List (Order κ)}

theorem Agrees.empty : Agrees (.empty : Registry α) [] ([] : List (Order κ)) [] :=
  ⟨fun _ h => absurd h List.not_mem_nil, fun h hl => absurd hl (Registry.not_lives_empty h),
    fun _ h => absurd h List.not_mem_nil⟩

/-- What is taken is not registered anyway. -/
theorem Agrees.still (h : Agrees r seen orders taken) :
    Agrees r seen orders (stillTaken r taken) :=
  ⟨fun t ht => registered_or_taken (h.guarded t ht), h.backed,
    fun _ ht => (mem_stillTaken.mp ht).2⟩

/-- A plain order, or none, changes nothing. -/
theorem holdsAfter_plain {o? : Option (Order κ)} (plain : ∀ o, o? = some o → o.isPlain)
    (accepts : Handle → Prop) (topic : Topic) (held : Prop) :
    holdsAfter accepts topic held o?.toList = held := by
  cases o? with
  | none => rfl
  | some o =>
    cases o with
    | subscribe _ _ => cases plain _ rfl
    | unsubscribe _ _ => cases plain _ rfl
    | _ => rfl

/-- **The registry moves with an order**, and the two agree again. -/
theorem Agrees.moves (h : Agrees r seen orders taken) (hs : r.Sound next) {o? : Option (Order κ)}
    (hm : Connection.Moves r next r' next' o?) :
    Agrees r' seen (orders ++ o?.toList) (stillTaken r' taken) := by
  refine ⟨fun t ht => registered_or_taken ?_, fun k hk => ?_, fun t ht => (mem_stillTaken.mp ht).2⟩
  · rw [holdsAfter_append] at ht
    cases hm with
    | stays o? plain =>
      rw [holdsAfter_plain plain] at ht
      exact h.guarded t ht
    | enters topic persistence listener k =>
      rw [Registry.contains_insert hs]
      obtain ⟨rfl, -⟩ | ht := ht
      · exact .inl (.inr rfl)
      · exact (h.guarded t ht).imp_left .inl
    | thins sound fewer same => exact (h.guarded t ht).imp_left (same t).mpr
    | leaves sound fewer gone others k? => exact (h.guarded t ht.2).imp_left (others t ht.1.symm).mpr
  · rw [holdsAfter_append]
    cases hm with
    | stays o? plain =>
      rw [holdsAfter_plain plain]
      exact h.backed k hk
    | enters topic persistence listener k? =>
      obtain hk | rfl := (Registry.lives_insert r _ k persistence listener).mp hk
      · exact .inr (h.backed k hk)
      · exact .inl ⟨rfl, rfl⟩
    | thins sound fewer same => exact h.backed k (fewer k hk)
    | leaves sound fewer gone others k? =>
      refine ⟨?_, h.backed k (fewer k hk)⟩
      rintro rfl
      exact gone (hk.contains sound)

/-! ## The server carries out the first order -/

/-- A subscription is accepted. -/
theorem Agrees.accepted {hd : Handle} {k : κ} (h : Agrees r seen (.subscribe hd k :: orders) taken) :
    Agrees r (hd.topic :: seen) orders taken := by
  refine ⟨fun t ht => h.guarded t (holdsAfter_mono ?_ orders ht), fun k' hk' => ?_, h.gone⟩
  · rintro ht
    obtain rfl | ht := List.mem_cons.mp ht
    · exact .inl ⟨rfl, trivial⟩
    · exact .inr ht
  · refine holdsAfter_mono ?_ orders (h.backed k' hk')
    rintro (⟨ht, -⟩ | ht)
    · exact ht ▸ List.mem_cons_self
    · exact List.mem_cons_of_mem _ ht

/-- The registry without the handle's registration. -/
theorem lives_getD {hd : Handle} (hs : r.Sound next) (k : Handle) :
    ((r.remove? hd).getD r).Lives k ↔ r.Lives k ∧ k ≠ hd := by
  cases hr : r.remove? hd with
  | none =>
    refine (and_iff_left_of_imp ?_).symm
    rintro hk rfl
    exact Registry.remove?_eq_none hr hk
  | some r' => exact (Registry.lives_of_remove? hs hr).2 k

theorem contains_getD {hd : Handle} (hs : r.Sound next) {t : Topic} (ht : t ≠ hd.topic) :
    ((r.remove? hd).getD r).contains t ↔ r.contains t := by
  cases hr : r.remove? hd with
  | none => exact Iff.rfl
  | some r' => exact Registry.contains_remove? hs hr ht

/-- **The topics that are taken** when the registry moves, and a handle's subscription is refused, if
any: its topic is, if this was the last registration. -/
def takenBy (r r' : Registry α) (taken : List Topic) : Option Handle → List Topic
  | some hd =>
    if r.contains hd.topic && !r'.contains hd.topic then hd.topic :: stillTaken r' taken
    else stillTaken r' taken
  | none => stillTaken r' taken

/-- **A subscription is refused**: its registration goes, and if it was the last of its topic, the topic
is taken. -/
theorem Agrees.refused {hd : Handle} {k : κ} (h : Agrees r seen (.subscribe hd k :: orders) taken)
    (hs : r.Sound next) :
    Agrees ((r.remove? hd).getD r) seen orders
      (takenBy r ((r.remove? hd).getD r) taken (some hd)) := by
  have hmem (t : Topic) : t ∈ takenBy r ((r.remove? hd).getD r) taken (some hd) ↔
      (r.contains t ∧ ¬ ((r.remove? hd).getD r).contains t ∧ t = hd.topic) ∨
        t ∈ stillTaken ((r.remove? hd).getD r) taken := by
    rw [takenBy]
    split
    · rename_i hc
      rw [Bool.and_eq_true, Bool.not_eq_true', ← Bool.not_eq_true] at hc
      rw [List.mem_cons]
      refine or_congr_left ⟨?_, fun ht => ht.2.2⟩
      rintro rfl
      exact ⟨hc.1, hc.2, rfl⟩
    · rename_i hc
      refine (or_iff_right ?_).symm
      rintro ⟨h₁, h₂, rfl⟩
      exact hc (by simp [h₁, h₂])
  refine ⟨fun t ht => ?_, fun k' hk' => ?_, fun t ht => ?_⟩
  · rw [hmem]
    have hold := h.guarded t (holdsAfter_mono .inr orders ht)
    by_cases hc : ((r.remove? hd).getD r).contains t
    · exact .inl hc
    · refine .inr ?_
      obtain hr | ht := hold
      · by_cases heq : t = hd.topic
        · exact .inl ⟨hr, hc, heq⟩
        · exact absurd ((contains_getD hs heq).mpr hr) hc
      · exact .inr (mem_stillTaken.mpr ⟨ht, hc⟩)
  · obtain ⟨hk, hne⟩ := (lives_getD hs k').mp hk'
    refine holdsAfter_mono ?_ orders (h.backed k' hk)
    rintro (⟨-, heq⟩ | hseen)
    · exact absurd heq.symm hne
    · exact hseen
  · obtain ⟨-, hc, -⟩ | ht := (hmem t).mp ht
    · exact hc
    · exact (mem_stillTaken.mp ht).2

/-- A subscription ends. -/
theorem Agrees.finished {topic : Topic} {k : Option κ}
    (h : Agrees r seen (.unsubscribe topic k :: orders) taken) :
    Agrees r (seen.filter (· ≠ topic)) orders taken := by
  have hmem (t : Topic) : t ∈ seen.filter (· ≠ topic) ↔ topic ≠ t ∧ t ∈ seen := by
    rw [List.mem_filter, decide_eq_true_eq, and_comm, ne_comm]
  refine ⟨fun t ht => h.guarded t ?_, fun k' hk' => ?_, h.gone⟩
  · rw [hmem] at ht
    exact ht
  · rw [hmem]
    exact h.backed k' hk'

/-- A plain order is carried out. -/
theorem Agrees.plain {o : Order κ} (ho : o.isPlain) (h : Agrees r seen (o :: orders) taken) :
    Agrees r seen orders taken := by
  cases o with
  | subscribe _ _ => cases ho
  | unsubscribe _ _ => cases ho
  | _ => exact ⟨h.guarded, h.backed, h.gone⟩

end RespClient
