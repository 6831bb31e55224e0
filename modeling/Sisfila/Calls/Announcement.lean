import Mathlib.Algebra.Order.Ring.Rat
import Mathlib.Tactic.Positivity
import Sisfila.Calls.Clock

namespace Sisfila

variable {α β : Type}

/-! The payload, as a query over the desks. -/

namespace Db

theorem mem_anunciadas {d : Db} {m : Mesa} :
    m ∈ d.anunciadas ↔ m ∈ d.mesas.rows ∧ m.ativo=some true ∧ m.vagaId.isSome=true := by
  rw [anunciadas,(List.perm_insertionSort _ _).mem_iff,List.mem_filter]
  simp

/-- A desk written after all the others comes first. -/
theorem head_anunciadas {d : Db} {m : Mesa} (hm : m ∈ d.anunciadas)
    (hlast : ∀ x ∈ d.mesas.rows,x≠m → x.updatedAt < m.updatedAt) : d.anunciadas.head?=some m := by
  have : Std.Total (fun a b : Mesa => b.updatedAt≤a.updatedAt) := ⟨fun a b => le_total _ _⟩
  have : IsTrans Mesa (fun a b => b.updatedAt≤a.updatedAt) := ⟨fun _ _ _ h h' => h'.trans h⟩
  have hs : d.anunciadas.Pairwise (fun a b => b.updatedAt≤a.updatedAt) :=
    List.pairwise_insertionSort _ _
  cases hl : d.anunciadas with
  | nil =>
    rw [hl] at hm
    cases hm
  | cons x xs =>
    have hx : x ∈ d.mesas.rows := (mem_anunciadas.mp (hl ▸ List.mem_cons_self)).1
    rw [hl] at hs hm
    by_contra hne
    have hxm : x≠m := fun h => hne (congrArg some h)
    have hm : m ∈ xs := (List.mem_cons.mp hm).resolve_left hxm.symm
    exact absurd ((List.pairwise_cons.mp hs).1 m hm) (not_le.mpr (hlast x hx hxm))

variable {d : Db} {v : Nat} {t : ℚ} {r : Mesa}

/-- The desk as the call leaves it. -/
def ocupada (r : Mesa) (v : Nat) (t : ℚ) : Mesa :=
  if r.vagaId=some v then r else { r with vagaId := some v, updatedAt := t }

theorem ocupada_colunas (r : Mesa) (v : Nat) (t : ℚ) : (ocupada r v t).id=r.id ∧
    (ocupada r v t).ativo=r.ativo ∧ (ocupada r v t).vagaId=some v := by
  unfold ocupada
  split_ifs with h
  · exact ⟨rfl,rfl,h⟩
  · exact ⟨rfl,rfl,rfl⟩

theorem mem_ocupa (hr : d.mesas.find r.id=some r) {x : Mesa} :
    x ∈ (d.ocupa r (some v) t).mesas.rows ↔
      x=ocupada r v t ∨ x ∈ d.mesas.rows ∧ x.id≠r.id := by
  have hmem := Table.mem_of_find hr
  unfold ocupa ocupada
  split_ifs with hv
  · constructor
    · intro hx
      exact (em (x.id=r.id)).imp (fun h => d.mesas.key_injective hx hmem h) (fun h => ⟨hx,h⟩)
    · rintro (rfl | ⟨hx,-⟩)
      · exact hmem
      · exact hx
  · rw [Table.modify_rows,List.mem_map]
    constructor
    · rintro ⟨y,hy,rfl⟩
      split_ifs with hyr
      · rw [d.mesas.key_injective hy hmem hyr]
        exact .inl rfl
      · exact .inr ⟨hy,hyr⟩
    · rintro (rfl | ⟨hx,hxr⟩)
      · exact ⟨r,hmem,if_pos rfl⟩
      · exact ⟨x,hx,if_neg hxr⟩

theorem ocupada_mem (hr : d.mesas.find r.id=some r) (ha : r.ativo=some true) :
    ocupada r v t ∈ (d.ocupa r (some v) t).anunciadas := by
  obtain ⟨-,hat,hv⟩ := ocupada_colunas r v t
  refine mem_anunciadas.mpr ⟨(mem_ocupa hr).mpr (.inl rfl),hat.trans ha,?_⟩
  rw [hv]
  rfl

theorem ocupada_dados (r : Mesa) (v : Nat) (t : ℚ) :
    ((ocupada r v t).id,(ocupada r v t).vagaId)=(r.id,some v) := by
  obtain ⟨hid,-,hv⟩ := ocupada_colunas r v t
  rw [hid,hv]

/-- The payload lists a desk that has been given a vaga exactly if the desk is active. -/
theorem mem_dados_ocupa (hr : d.mesas.find r.id=some r) :
    (r.id,some v) ∈ (d.ocupa r (some v) t).dados ↔ r.ativo=some true := by
  rw [dados,List.mem_map]
  constructor
  · rintro ⟨x,hx,he⟩
    obtain ⟨hrow,hat,-⟩ := mem_anunciadas.mp hx
    rcases (mem_ocupa hr).mp hrow with rfl | ⟨-,hne⟩
    · rw [← (ocupada_colunas r v t).2.1]
      exact hat
    · exact absurd (congrArg Prod.fst he) hne
  · intro ha
    exact ⟨_,ocupada_mem hr ha,ocupada_dados r v t⟩

theorem head_dados_ocupa (hr : d.mesas.find r.id=some r) (ha : r.ativo=some true)
    (hv : r.vagaId≠some v) (ht : ∀ x ∈ d.mesas.rows,x.updatedAt<t) :
    (d.ocupa r (some v) t).dados.head?=some (r.id,some v) := by
  have hlast : ∀ x ∈ (d.ocupa r (some v) t).mesas.rows,x≠ocupada r v t →
      x.updatedAt<(ocupada r v t).updatedAt := by
    intro x hx hne
    rw [ocupada,if_neg hv]
    exact ht x (((mem_ocupa hr).mp hx).resolve_left hne).1
  rw [dados,List.head?_map,head_anunciadas (ocupada_mem hr ha) hlast,Option.map_some,
    ocupada_dados]

theorem dados_congr {d d' : Db} (h : d.mesas=d'.mesas) : d.dados=d'.dados := by
  simp only [dados,anunciadas,h]

theorem dados_ocupa_congr {d d' : Db} (h : d.mesas=d'.mesas) (m : Mesa) (v : Option Nat) (t : ℚ) :
    (d.ocupa m v t).dados=(d'.ocupa m v t).dados :=
  dados_congr (by simp only [ocupa,h])

end Db

/-! The requests. -/

/-- A statement that gives no desk a vaga. -/
def Discreto (l : World → Evento) (w : World → World) : Prop :=
  (∀ s m v,l s≠.associa m (some v)) ∧ ∀ s,(w s).db.mesas=s.db.mesas ∧ s.Antes (w s)

theorem ne_associa_of_marca {e : Evento} (h : e.marca=false) (m : Nat) (v : Option Nat) :
    e≠.associa m v := by
  rintro rfl
  cases h

theorem discreto_le {l : Db → Evento} (hl : ∀ d,(l d).marca=false) :
    Discreto (fun s => l s.db) id :=
  ⟨fun s m v => ne_associa_of_marca (hl s.db) m (some v),fun s => ⟨rfl,.refl s⟩⟩

theorem discreto_grava {f : Db → Db} (hf : ∀ d,(f d).mesas=d.mesas) :
    Discreto (fun _ => .grava) (fun s => { s with db := f s.db }) :=
  ⟨fun _ _ _ => nofun,fun s => ⟨hf s.db,0,rfl⟩⟩

theorem estatistico_discreto : Estatistico Discreto where
  le _ hl := discreto_le hl
  relogio := ⟨fun _ _ _ => nofun,fun _ => ⟨rfl,1,rfl⟩⟩
  fila i g _ := discreto_grava (f := fun d => d.updateFila i g) (fun _ => by cases i <;> rfl)
  espera _ _ _ := discreto_grava (fun _ => rfl)

theorem discreto_consulta (q : Db → α) : (consulta q).Every Discreto :=
  ⟨discreto_le (l := fun _ => .consulta) (fun _ => rfl),fun _ => trivial⟩

theorem discreto_registra (v : Option Vaga) : (Mesa.registra v).Every Discreto := by
  cases v with
  | none => exact trivial
  | some v =>
    have hdata : (Mesa.marcaChamada v).Every Discreto :=
      ⟨estatistico_discreto.relogio,fun _ => ⟨discreto_grava (fun _ => rfl),fun _ => trivial⟩⟩
    change (Mesa.registraChamada v).Every Discreto
    rw [Mesa.registraChamada_eq]
    exact hdata.bind (fun _ => Mesa.every_registraEspera estatistico_discreto v)

/-- Every desk that gets a vaga is announced as the desk it becomes, at one of the readings of the
clock. -/
def Anuncia (s : World) (log : List Evento) : Prop :=
  ∀ m v,.associa m (some v) ∈ log → ∃ r n,s.db.mesas.find m=some r ∧
    .difunde (s.db.ocupa r (some v) (s.clock n)).dados ∈ log

theorem anuncia_of_discreto {p : Req α} (hp : p.Every Discreto) (s : World) :
    Anuncia s (p.exec s).log := by
  intro m v hm
  exact absurd rfl (hp.exec_log (fun e => ∀ m v,e≠.associa m (some v)) (fun _ _ h => h.1) s _ hm m v)

theorem Anuncia.bind {p : Req α} {f : α → Req β} (hp : p.Every Discreto)
    (hf : ∀ a t,Anuncia t ((f a).exec t).log) (s : World) : Anuncia s ((p >>= f).exec s).log := by
  have hlog := anuncia_of_discreto hp s
  obtain ⟨hmesas,k,hk⟩ := hp.exec_rel (fun s t => t.db.mesas=s.db.mesas ∧ s.Antes t)
    (fun s => ⟨rfl,.refl s⟩) (fun _ _ _ h h' => ⟨h'.1.trans h.1,h.2.trans h'.2⟩)
    (fun _ _ h => h.2) s
  rw [Prog.exec_bind,Outcome.andThen]
  cases hr : (p.exec s).result with
  | error e => exact hlog
  | ok a =>
    intro m v hm
    rcases List.mem_append.mp hm with hm | hm
    · obtain ⟨r,n,hrow,hd⟩ := hlog m v hm
      exact ⟨r,n,hrow,List.mem_append_left _ hd⟩
    · obtain ⟨r,n,hrow,hd⟩ := hf a _ m v hm
      refine ⟨r,n+k,hmesas ▸ hrow,List.mem_append_right _ ?_⟩
      rw [Db.dados_ocupa_congr hmesas,hk] at hd
      exact hd

/-- The desk is written, and then the payload goes out. -/
theorem anuncia_ocupaMesa (v : Option Vaga) (mesa : Option Nat) {f : Unit → Req β}
    (hf : ∀ a,(f a).Every Discreto) (s : World) :
    Anuncia s ((Mesa.ocupaMesa v mesa >>= fun _ => notifica >>= f).exec s).log := by
  have hn : ∀ m v t,.associa m (some v) ∉ ((f ()).exec t).log := by
    intro m v t h
    exact (hf ()).exec_log (fun e => ∀ m v,e≠.associa m (some v)) (fun _ _ h => h.1) t _ h m v rfl
  intro m w hm
  cases hr : mesa.bind s.db.mesas.find with
  | none =>
    have hlog : ((Mesa.ocupaMesa v mesa >>= fun _ => notifica >>= f).exec s).log=
        .consulta::.difunde s.db.dados::((f ()).exec s).log := by
      simp [Mesa.ocupaMesa,Prog.exec_bind,hr,notifica]
    rw [hlog] at hm
    simp only [List.mem_cons,reduceCtorEq,false_or] at hm
    exact absurd hm (hn m w s)
  | some r =>
    have hlog : ((Mesa.ocupaMesa v mesa >>= fun _ => notifica >>= f).exec s).log=
        .consulta::.consulta::.associa r.id (v.map (fun v => v.id))::
          .difunde (s.db.ocupa r (v.map (fun v => v.id)) (s.clock 0)).dados::
          ((f ()).exec { db := s.db.ocupa r (v.map (fun v => v.id)) (s.clock 0),
                         clock := fun n => s.clock (n+1) }).log := by
      simp [Mesa.ocupaMesa,Prog.exec_bind,hr,notifica]
    rw [hlog] at hm ⊢
    simp only [List.mem_cons,reduceCtorEq,false_or,Evento.associa.injEq] at hm
    obtain ⟨rfl,hw⟩ := hm.resolve_right (hn m w _)
    obtain ⟨j,-,hj⟩ := Option.bind_eq_some_iff.mp hr
    have hrow : s.db.mesas.find r.id=some r := Table.find_of_mem (Table.mem_of_find hj)
    rw [← hw]
    exact ⟨r,0,hrow,by simp⟩

theorem anuncia_associa (v : Option Vaga) (mesa : Option Nat) {f : Unit → Req β}
    (hf : ∀ a,(f a).Every Discreto) (s : World) :
    Anuncia s ((Mesa.associaVagaAMesa v mesa >>= fun _ => notifica >>= f).exec s).log := by
  rw [Mesa.associaVagaAMesa,bind_assoc]
  exact Anuncia.bind (discreto_registra v) (fun _ => anuncia_ocupaMesa v mesa hf) s

theorem anuncia_chamaProximo (fila : Fila) (mesa : Option Nat) (n : Int) {f : Unit → Req β}
    (hf : ∀ a,(f a).Every Discreto) (s : World) :
    Anuncia s ((fila.chamaProximo mesa n >>= fun _ => notifica >>= f).exec s).log := by
  have hi : (Fila.increment fila.id n).Every Discreto :=
    ⟨⟨fun _ _ _ => nofun,fun _ => ⟨rfl,0,rfl⟩⟩,fun _ => trivial⟩
  rw [Fila.chamaProximo,bind_assoc]
  refine Anuncia.bind hi (fun _ t => ?_) s
  rw [bind_assoc]
  exact Anuncia.bind (discreto_consulta _) (fun v => anuncia_associa v mesa hf) t

theorem discreto_authorize (u : Sessao) : (authorize u).Every Discreto := by
  unfold authorize
  split_ifs <;> trivial

theorem discreto_ret (a : α) : (pure a : Req α).Every Discreto := trivial

theorem discreto_carrega (q : Db → α) : (carrega q).Every Discreto :=
  ⟨discreto_le (l := fun _ => .carrega) (fun _ => rfl),fun _ => trivial⟩

theorem anuncia_filasProximo (u : Sessao) (i : Nat) (s : World) :
    Anuncia s ((FilasController.proximo u i).exec s).log := by
  have hset : (FilasController.setFila i).Every Discreto :=
    (discreto_carrega _).bind (fun o => every_orRaise _ o)
  refine Anuncia.bind hset (fun fila => ?_) s
  refine Anuncia.bind (discreto_authorize u) (fun _ => ?_)
  refine Anuncia.bind (discreto_consulta _) (fun n t => ?_)
  unfold FilasController.chama
  split_ifs
  · exact anuncia_associa none u.mesa (fun _ => discreto_ret _) t
  · exact anuncia_chamaProximo fila u.mesa 1 (fun _ => discreto_ret _) t

theorem discreto_primeiraNaoVazia (fs : List Fila) :
    (Colegiado.primeiraNaoVazia fs).Every Discreto := by
  induction fs with
  | nil => trivial
  | cons f fs ih =>
    refine (discreto_consulta _).bind (fun n => ?_)
    split_ifs
    · trivial
    · exact ih

theorem anuncia_esvazia (mesa : Mesa) (u : Sessao) {f : Unit → Req β}
    (hf : ∀ a,(f a).Every Discreto) (s : World) :
    Anuncia s ((ColegiadosController.esvazia mesa u >>= f).exec s).log := by
  unfold ColegiadosController.esvazia
  rw [bind_assoc]
  refine Anuncia.bind (discreto_consulta _) (fun v t => ?_) s
  cases v with
  | none => exact anuncia_of_discreto (hf ()) t
  | some v =>
    rw [bind_assoc]
    exact anuncia_associa none u.mesa hf t

theorem anuncia_colegiadosProximo (u : Sessao) (c : Nat) (s : World) :
    Anuncia s ((ColegiadosController.proximo u c).exec s).log := by
  have hset : (ColegiadosController.setColegiado c).Every Discreto :=
    (discreto_consulta _).bind (fun o => every_orRaise _ o)
  refine Anuncia.bind hset (fun col => ?_) s
  refine Anuncia.bind (discreto_authorize u) (fun _ => ?_)
  refine Anuncia.bind (discreto_consulta _) (fun mesa t => ?_)
  cases mesa with
  | none => exact anuncia_of_discreto (discreto_ret _) t
  | some mesa =>
    refine Anuncia.bind ((discreto_carrega _).bind discreto_primeiraNaoVazia) (fun fila t => ?_) t
    cases fila with
    | none => exact anuncia_esvazia mesa u (fun _ => discreto_ret _) t
    | some fila =>
      unfold ColegiadosController.atende ColegiadosController.chama
      rw [bind_assoc]
      refine Anuncia.bind (discreto_consulta _) (fun n t => ?_) t
      split_ifs
      · exact anuncia_esvazia mesa u (fun _ => discreto_ret _) t
      · rw [bind_assoc]
        exact anuncia_chamaProximo fila u.mesa 1 (fun _ => discreto_ret _) t

/-- A call is announced exactly on an active desk, and there as the first one if the desk had
another vaga or none. -/
theorem proximo_anuncia {r : Requisicao} {s : World}
    (hr : r.acao=.filasProximo ∨ r.acao=.colegiadosProximo)
    (hclock : ∀ x ∈ s.db.mesas.rows,∀ n,x.updatedAt < s.clock n) {m v : Nat}
    (hm : .associa m (some v) ∈ (r.prog.exec s).log) :
    ∃ mesa ds,s.db.mesas.find m=some mesa ∧ .difunde ds ∈ (r.prog.exec s).log ∧
      ((m,some v) ∈ ds ↔ mesa.ativo=some true) ∧
      (mesa.ativo=some true → mesa.vagaId≠some v → ds.head?=some (m,some v)) := by
  have ha : Anuncia s (r.prog.exec s).log := by
    cases r with
    | filasProximo u i => exact anuncia_filasProximo u i s
    | colegiadosProximo u c => exact anuncia_colegiadosProximo u c s
    | _ => simp [Requisicao.acao] at hr
  obtain ⟨mesa,n,hrow,hd⟩ := ha m v hm
  obtain rfl : mesa.id=m := Table.key_of_find hrow
  refine ⟨mesa,_,hrow,hd,Db.mem_dados_ocupa hrow,?_⟩
  intro hat hne
  exact Db.head_dados_ocupa hrow hat hne (fun x hx => hclock x hx n)

/-- One aluno waits in each of two filas; the clock is past the last write to a desk. -/
def Cenario.telao (mesas : Table Mesa) : World :=
  ⟨{ Cenario.db Cenario.duas Cenario.umaEmCada with mesas := mesas },fun n => 10*n+10⟩

def Cenario.mesas (ativo : Bool) : Table Mesa :=
  ⟨[{ id := 1, ativo := some ativo },{ id := 2, vagaId := some 2 }],3,by simp,by simp⟩

/-- The call goes to the top of the screen, above a desk that had its vaga before. -/
theorem proximo_anuncia_cenario : ∃ ds,
    .difunde ds ∈ ((Requisicao.filasProximo (Cenario.mesa 1) 1).prog.exec
      (Cenario.telao (Cenario.mesas true))).log ∧ ds.head?=some (1,some 1) := by
  have hclock : ∀ x ∈ (Cenario.telao (Cenario.mesas true)).db.mesas.rows,∀ n,
      x.updatedAt<(Cenario.telao (Cenario.mesas true)).clock n := by
    intro x hx n
    have h0 : x.updatedAt=0 := by
      revert x
      decide +kernel
    rw [h0]
    change (0 : ℚ)<10*n+10
    positivity
  obtain ⟨mesa,ds,hf,hd,-,hhead⟩ := proximo_anuncia (m := 1) (v := 1)
    (r := .filasProximo (Cenario.mesa 1) 1) (.inl rfl) hclock (by decide +kernel)
  obtain rfl := Option.some.inj hf
  exact ⟨ds,hd,hhead rfl (by decide)⟩

/-- The mesas of a broadcast. -/
def Evento.payload : Evento → Option (List (Nat × Option Nat))
  | .difunde ds => some ds
  | _ => none

/-- The session sits at a desk that is switched off: nobody sees the call. -/
theorem proximo_anuncia_inativa :
    .associa 1 (some 1) ∈ ((Requisicao.filasProximo (Cenario.mesa 1) 1).prog.exec
      (Cenario.telao (Cenario.mesas false))).log ∧
    ((Requisicao.filasProximo (Cenario.mesa 1) 1).prog.exec
      (Cenario.telao (Cenario.mesas false))).log.filterMap Evento.payload=[[(2,some 2)]] := by
  decide +kernel

end Sisfila
