import Sisfila.Framework.Runs
import Sisfila.Model.Routes
import Sisfila.Queue.Run

namespace Sisfila

/-! What `VagasController` does to one fila: deletions and new positions. -/

namespace VagasController

variable {s : World} {v : Vaga}

private theorem usuario_of_manageAll {u : Sessao} (hu : Ability.manageAll u=true) :
    u.usuario.isNone=false := by
  cases h : u.usuario with
  | some _ => rfl
  | none => simp [Ability.manageAll,h] at hu

/-- A vaga goes if a superadmin asks and its aluno is still there to be named in the log. -/
theorem db_destroy (u : Sessao) (hv : s.db.vagas.find v.id=some v) :
    ((destroy u v.id).exec s).state.db=
      if Ability.manageAll u=true ∧ (v.alunoId.bind s.db.alunos.find).isSome=true
        then s.db.apagaVaga v else s.db := by
  by_cases hu : Ability.manageAll u=true
  · have hn := usuario_of_manageAll hu
    cases ha : v.alunoId.bind s.db.alunos.find with
    | none =>
      simp [destroy,comFiltros,setVaga,acha,Prog.exec_bind,hv,hn,authorize,hu,ha]
    | some a =>
      simp [destroy,comFiltros,setVaga,acha,Prog.exec_bind,hv,hn,authorize,hu,ha]
  · cases hn : u.usuario.isNone <;>
      simp [destroy,comFiltros,setVaga,acha,Prog.exec_bind,hv,hn,authorize,hu]

/-- The request that `update` lets through to its two saves. -/
def Aceita (d : Db) (u : Sessao) (v : Vaga) (p : VagaParams) : Prop :=
  Ability.manageAll u=true ∧ d.vagaValida (p.atribuiBase v.toVagaBase)=true

instance (d : Db) (u : Sessao) (v : Vaga) (p : VagaParams) : Decidable (Aceita d u v p) :=
  inferInstanceAs (Decidable (_ ∧ _))

theorem db_update (u : Sessao) (p : VagaParams) (hv : s.db.vagas.find v.id=some v) :
    ((update u v.id p).exec s).state.db=if Aceita s.db u v p
      then (s.db.atualizaVaga v.id p).setListPosition (p.atribui v) p.posicao.join
      else s.db := by
  unfold Aceita
  by_cases hu : Ability.manageAll u=true
  · have hn := usuario_of_manageAll hu
    by_cases hp : s.db.vagaValida (p.atribuiBase v.toVagaBase)=true
    · simp [update,comFiltros,setVaga,acha,Prog.exec_bind,hv,hn,authorize,hu,hp,gravaVaga]
    · simp [update,comFiltros,setVaga,acha,Prog.exec_bind,hv,hn,authorize,hu,hp]
  · cases hn : u.usuario.isNone <;>
      simp [update,comFiltros,setVaga,acha,Prog.exec_bind,hv,hn,authorize,hu]

end VagasController

/-! Deleting a vaga. -/

/-- The vagas of the fila still to be called, in their order. -/
def Db.aChamar (d : Db) (f : Fila) : List Nat :=
  (orderBy (fun v : Vaga => v.posicao) ((d.vagasDe (some f.id)).filter
    (fun v => decide (∃ p ∈ v.posicao,f.posicao<p)))).map (fun v => v.id)

theorem Db.aChamar_eq (d : Db) (f : Fila) :
    d.aChamar f=(d.vagas.after (Db.naFila (some f.id)) f.posicao).map Row.key := rfl

/-- The positions of the fila are exactly 1, ..., n. -/
def Db.Completa (d : Db) (f : Option Nat) : Prop :=
  Filled (fun v : Vaga => v.posicao) (d.vagasDe f)

instance (d : Db) (f : Option Nat) : Decidable (d.Completa f) :=
  inferInstanceAs (Decidable (_ ∧ ∀ r ∈ _,∃ _,_))

/-- Deleting a vaga of the fila takes nobody else out of those still to be called exactly if the
pointer has not reached it, or has used the list up. -/
theorem VagasController.destroy_aChamar {s : World} {u : Sessao} {v : Vaga} {f : Fila} {p : Int}
    (hf : f ∈ s.db.filas.rows) (hv : v ∈ s.db.vagas.rows) (hvf : v.filaId=some f.id)
    (hvp : v.posicao=some p) (hc : s.db.Completa (some f.id))
    (hn : f.posicao≤(s.db.contaVagas f.id : Int))
    (hd : ((destroy u v.id).exec s).state.db.vagas.find v.id=none) :
    f ∈ ((destroy u v.id).exec s).state.db.filas.rows ∧
      (((destroy u v.id).exec s).state.db.aChamar f=(s.db.aChamar f).filter (fun i => i != v.id) ↔
        f.posicao<p ∨ f.posicao=(s.db.contaVagas f.id : Int)) := by
  have hfind : s.db.vagas.find v.id=some v := Table.find_of_mem hv
  have hdb := db_destroy u hfind
  rw [hdb] at hd ⊢
  split_ifs at hd ⊢ with ha
  · refine ⟨hf,?_⟩
    have hc : Filled Listed.pos (s.db.vagas.rows.filter (Db.naFila (some f.id))) := hc
    have hS : ∀ p w,Db.naFila (some f.id) (Listed.put p w)=Db.naFila (some f.id) w :=
      fun _ _ => rfl
    have hr : Db.naFila (some f.id) v=true := by simp [Db.naFila,hvf]
    have hrem : (s.db.apagaVaga v).vagas=s.db.vagas.remove (Db.naFila (some f.id)) v := by
      rw [Db.apagaVaga,hvf]
      rfl
    rw [Db.aChamar_eq,Db.aChamar_eq,hrem]
    constructor
    · intro he
      by_contra hno
      rw [not_or,not_lt] at hno
      exact Table.after_remove_ne hS hv hc hvp hno.1 (lt_of_le_of_ne hn hno.2) he
    · rintro (hlt | heq)
      · exact Table.after_remove hS hv hr hc hvp hlt
      · have hfull := Table.filled_remove hS hv hr hc
        have hlen : ((s.db.vagas.remove (Db.naFila (some f.id)) v).rows.filter
            (Db.naFila (some f.id))).length+1=s.db.contaVagas f.id := by
          rw [Table.filter_remove hS,List.length_map]
          exact Table.length_filter_ne hv hr
        rw [Table.after_eq_nil hfull (by omega),Table.after_eq_nil hc heq.ge]
        rfl
  · rw [hfind] at hd
    cases hd

/-- Two enrolments, one call, and the second vaga is deleted. -/
theorem destroy_aChamar_cenario :
    let s := runAll Rota.prog (Cenario.world Cenario.medida Table.empty)
      [.requisicao (Cenario.inscreve "a"),.requisicao (Cenario.inscreve "b"),
        .requisicao (.filasProximo (Cenario.mesa 1) 1)]
    ∃ f ∈ s.db.filas.rows,∃ v ∈ s.db.vagas.rows,f.posicao=1 ∧ v.posicao=some 2 ∧
      ((VagasController.destroy (Cenario.mesa 1) v.id).exec s).state.db.aChamar f=
        (s.db.aChamar f).filter (fun i => i != v.id) := by
  intro s
  obtain ⟨f,hf,v,hv,hfp,hvp,hvf,hc,hn,hd⟩ : ∃ f ∈ s.db.filas.rows,∃ v ∈ s.db.vagas.rows,
      f.posicao=1 ∧ v.posicao=some 2 ∧ v.filaId=some f.id ∧ s.db.Completa (some f.id) ∧
      f.posicao≤(s.db.contaVagas f.id : Int) ∧
      ((VagasController.destroy (Cenario.mesa 1) v.id).exec s).state.db.vagas.find v.id=none := by
    decide +kernel
  refine ⟨f,hf,v,hv,hfp,hvp,?_⟩
  have h := VagasController.destroy_aChamar hf hv hvf hvp hc hn hd
  exact h.2.mpr (Or.inl (by omega))

/-- The first of three has been called and is deleted: the second moves to position 1, where the
pointer already is, and will not be called. -/
theorem destroy_aChamar_falha :
    let s := runAll Rota.prog (Cenario.world Cenario.medida Table.empty)
      [.requisicao (Cenario.inscreve "a"),.requisicao (Cenario.inscreve "b"),
        .requisicao (Cenario.inscreve "c"),.requisicao (.filasProximo (Cenario.mesa 1) 1)]
    ∃ f ∈ s.db.filas.rows,∃ v ∈ s.db.vagas.rows,v.id=1 ∧ v.filaId=some f.id ∧
      s.db.Completa (some f.id) ∧ 0≤f.posicao ∧ f.posicao≤(s.db.contaVagas f.id : Int) ∧
      ((VagasController.destroy (Cenario.mesa 1) v.id).exec s).state.db.vagas.find v.id=none ∧
      s.db.aChamar f=[2,3] ∧
      ((VagasController.destroy (Cenario.mesa 1) v.id).exec s).state.db.aChamar f=[3] := by
  decide +kernel

/-! A new position. -/

namespace Db

/-- The vagas of the fila other than `v`, in their order. -/
def outras (d : Db) (f v : Nat) : List Nat :=
  ((orderBy (fun w : Vaga => w.posicao) (d.vagasDe (some f))).filter (fun w => w.id != v)).map
    (fun w => w.id)

/-- The fila has the same vagas, its positions are 1, ..., n, and the others keep their order. -/
structure Reposiciona (d d' : Db) (f v : Nat) : Prop where
  mesmas : (d'.vagasDe (some f)).map (fun w => w.id)=(d.vagasDe (some f)).map (fun w => w.id)
  completa : d'.Completa (some f)
  ordem : d'.outras f v=d.outras f v

theorem Reposiciona.refl {d : Db} {f : Nat} (h : d.Completa (some f)) (v : Nat) :
    d.Reposiciona d f v := ⟨rfl,h,rfl⟩

variable {d : Db} {v : Vaga} {f : Nat}

/-- Both saves of `VagasController#update`. -/
def salva (d : Db) (v : Vaga) (p : VagaParams) : Db :=
  (d.atualizaVaga v.id p).setListPosition (p.atribui v) p.posicao.join

theorem vagas_salva (p : VagaParams) (hvf : v.filaId=some f) : (d.salva v p).vagas=
    (d.vagas.modify v.id p.atribui (fun _ => rfl)).moveTo (naFila (some f)) (p.atribui v)
      p.posicao.join := by
  have hf : (p.atribui v).filaId=some f := hvf
  rw [salva,setListPosition,hf]
  rfl

theorem naFila_atribui (p : VagaParams) (w : Vaga) : naFila (some f) (p.atribui w)=
    naFila (some f) w := rfl

theorem naFila_self (p : VagaParams) (hvf : v.filaId=some f) :
    naFila (some f) (p.atribui v)=true := beq_iff_eq.mpr hvf

theorem mem_modify (p : VagaParams) (hv : v ∈ d.vagas.rows) :
    p.atribui v ∈ (d.vagas.modify v.id p.atribui (fun _ => rfl)).rows :=
  List.mem_map.mpr ⟨v,hv,if_pos rfl⟩

/-- The other columns decide neither who is in the fila nor where. -/
theorem vagasDe_modify (p : VagaParams) :
    (d.vagas.modify v.id p.atribui (fun _ => rfl)).rows.filter (naFila (some f))=
      (d.vagasDe (some f)).map (fun w => if Row.key w=v.id then p.atribui w else w) :=
  d.vagas.filter_modify v.id p.atribui (fun _ => rfl) (naFila_atribui p)

theorem length_modify (p : VagaParams) : ((d.vagas.modify v.id p.atribui (fun _ => rfl)).rows.filter
    (naFila (some f))).length=d.contaVagas f := by
  rw [vagasDe_modify,List.length_map]
  rfl

theorem completa_modify (p : VagaParams) (hc : d.Completa (some f)) :
    Filled Listed.pos ((d.vagas.modify v.id p.atribui (fun _ => rfl)).rows.filter
      (naFila (some f))) :=
  Table.filled_modify v.id p.atribui (fun _ => rfl) (naFila_atribui p) (fun _ => rfl) hc

theorem ids_salva (p : VagaParams) (hvf : v.filaId=some f) :
    ((d.salva v p).vagasDe (some f)).map (fun w => w.id)=
      (d.vagasDe (some f)).map (fun w => w.id) := by
  have hk := Table.key_moveRow (naFila (some f)) (p.atribui v) p.posicao.join
  have hm := Table.filter_moveTo (S := naFila (some f)) (U := naFila (some f)) (fun _ _ => rfl)
    (p.atribui v) p.posicao.join (d.vagas.modify v.id p.atribui (fun _ => rfl))
  change ((d.salva v p).vagas.rows.filter (naFila (some f))).map Row.key=_
  rw [vagas_salva p hvf,hm,vagasDe_modify,List.map_map,List.map_map]
  apply List.map_congr_left
  intro w _
  simp only [Function.comp_apply,hk]
  split_ifs <;> rfl

/-- The row that is moved, wherever it goes. -/
theorem find_salva (p : VagaParams) (hv : v ∈ d.vagas.rows) (hvf : v.filaId=some f) :
    (d.salva v p).vagas.find v.id=some (Listed.put p.posicao.join (p.atribui v)) := by
  have hfind := ((d.vagas.modify v.id p.atribui (fun _ => rfl)).find_eq_some_iff v.id
    (p.atribui v)).mpr ⟨mem_modify p hv,rfl⟩
  rw [vagas_salva p hvf,Table.moveTo,Table.find_map,hfind,Option.map_some,Table.moveRow,if_pos rfl]

theorem outras_salva {p : VagaParams} {q : Int} (hv : v ∈ d.vagas.rows) (hvf : v.filaId=some f)
    (hc : d.Completa (some f)) (hp : p.posicao.join=some q)
    (hq : q≤(d.contaVagas f : Int)) : (d.salva v p).outras f v.id=d.outras f v.id := by
  have hr := naFila_self p hvf
  have hmove := Table.keys_orderBy_moveTo (S := naFila (some f)) (fun _ _ => rfl)
    (mem_modify p hv) hr (completa_modify p hc) (q := q) (by rw [length_modify]; exact hq)
  rw [← hp,← vagas_salva p hvf] at hmove
  refine Eq.trans hmove ?_
  -- before the move only other columns were written
  have hcol : orderBy Listed.pos ((d.vagas.modify v.id p.atribui (fun _ => rfl)).rows.filter
      (naFila (some f)))=(orderBy (fun w : Vaga => w.posicao) (d.vagasDe (some f))).map
        (fun w => if Row.key w=v.id then p.atribui w else w) := by
    rw [vagasDe_modify]
    apply orderBy_map_congr
    intro a _ b _
    have hpos : ∀ w : Vaga,Listed.pos (if Row.key w=v.id then p.atribui w else w)=
        Listed.pos w := by
      intro w
      split_ifs <;> rfl
    rw [hpos,hpos]
  rw [hcol,List.filter_map,List.map_map]
  have hk : ∀ w : Vaga,Row.key (if Row.key w=v.id then p.atribui w else w)=w.id := by
    intro w
    split_ifs <;> rfl
  have hkf : (fun w => Row.key w != Row.key (p.atribui v)) ∘
      (fun w : Vaga => if Row.key w=v.id then p.atribui w else w)=fun w => w.id != v.id := by
    funext w
    rw [Function.comp_apply,hk]
    rfl
  rw [hkf]
  exact List.map_congr_left (fun w _ => hk w)

theorem completa_salva {p : VagaParams} {q : Int} (hv : v ∈ d.vagas.rows) (hvf : v.filaId=some f)
    (hc : d.Completa (some f)) (hp : p.posicao.join=some q) :
    (d.salva v p).Completa (some f) ↔ q≤(d.contaVagas f : Int) := by
  have hr := naFila_self p hvf
  constructor
  · intro hn
    obtain ⟨hm,hk⟩ := (Table.find_eq_some_iff _ _ _).mp (find_salva p hv hvf)
    have hmem : Listed.put p.posicao.join (p.atribui v) ∈ (d.salva v p).vagasDe (some f) :=
      List.mem_filter.mpr ⟨hm,hr⟩
    obtain ⟨x,hx,-,hle⟩ := hn.2 _ hmem
    have hids := congrArg List.length (ids_salva (d := d) p hvf)
    rw [List.length_map,List.length_map] at hids
    have hpx : some (max 1 q)=some x := by
      rw [← hx,hp]
      rfl
    have hxq := Option.some.inj hpx
    rw [hids] at hle
    have hcount : d.contaVagas f=(d.vagasDe (some f)).length := rfl
    omega
  · intro hq
    have hfull := Table.filled_moveTo (S := naFila (some f)) (fun _ _ => rfl) (mem_modify p hv) hr
      (completa_modify p hc) (q := q) (by rw [length_modify]; exact hq)
    rw [← hp,← vagas_salva p hvf] at hfull
    exact hfull

end Db

namespace VagasController

/-- An update that sends a position keeps the fila a list exactly if it is refused or the position
is not past the end. -/
theorem update_reposiciona {s : World} {v : Vaga} {f : Nat} (hv : v ∈ s.db.vagas.rows)
    (hvf : v.filaId=some f) (hc : s.db.Completa (some f)) (u : Sessao) {p : VagaParams} {q : Int}
    (hp : p.posicao=some (some q)) :
    s.db.Reposiciona ((update u v.id p).exec s).state.db f v.id ↔
      q≤(s.db.contaVagas f : Int) ∨ ¬Aceita s.db u v p := by
  have hfind : s.db.vagas.find v.id=some v := Table.find_of_mem hv
  have hpj : p.posicao.join=some q := by rw [hp]; rfl
  have hiff := Db.completa_salva hv hvf hc hpj
  rw [db_update u p hfind]
  change s.db.Reposiciona (if Aceita s.db u v p then s.db.salva v p else s.db) f v.id ↔ _
  split_ifs with ha
  · rw [or_iff_left (not_not_intro ha),← hiff]
    constructor
    · exact fun h => h.completa
    · intro h
      exact ⟨Db.ids_salva p hvf,h,Db.outras_salva hv hvf hc hpj (hiff.mp h)⟩
  · exact iff_of_true (Db.Reposiciona.refl hc v.id) (Or.inr ha)

/-- The last of three moves to the front. -/
theorem update_reposiciona_cenario :
    let s := runAll Rota.prog (Cenario.world Cenario.medida Table.empty)
      [.requisicao (Cenario.inscreve "a"),.requisicao (Cenario.inscreve "b"),
        .requisicao (Cenario.inscreve "c")]
    ∃ v ∈ s.db.vagas.rows,v.posicao=some 3 ∧ s.db.Completa (some 1) ∧ s.db.Reposiciona
      ((update (Cenario.mesa 1) v.id { posicao := some (some 1) }).exec s).state.db 1 v.id := by
  intro s
  obtain ⟨v,hv,hvp,hvf,hc,hn⟩ : ∃ v ∈ s.db.vagas.rows,v.posicao=some 3 ∧ v.filaId=some 1 ∧
      s.db.Completa (some 1) ∧ s.db.contaVagas 1=3 := by
    decide +kernel
  exact ⟨v,hv,hvp,hc,(update_reposiciona hv hvf hc (Cenario.mesa 1) rfl).mpr
    (Or.inl (by omega))⟩

/-- The first of three is sent to position 10: the list has the positions 10, 2 and 3. -/
theorem update_reposiciona_falha :
    let s := runAll Rota.prog (Cenario.world Cenario.medida Table.empty)
      [.requisicao (Cenario.inscreve "a"),.requisicao (Cenario.inscreve "b"),
        .requisicao (Cenario.inscreve "c")]
    let d := ((update (Cenario.mesa 1) 1 { posicao := some (some 10) }).exec s).state.db
    s.db.Completa (some 1) ∧ (s.db.vagasDe (some 1)).map (fun v => v.id)=[1,2,3] ∧
      (d.vagasDe (some 1)).map (fun v => v.posicao)=[some 10,some 2,some 3] ∧
      ¬d.Completa (some 1) := by
  decide +kernel

end VagasController

/-! No position. -/

/-- What the form says: an empty position is the end of the fila. One that is not sent changes no
position. -/
structure Db.FimDaFila (d d' : Db) (f v : Nat) (p : VagaParams) : Prop where
  vazia : p.posicao=some none →
    (d'.vagas.find v).bind (fun w => w.posicao)=some (d.contaVagas f : Int) ∧
      d'.outras f v=d.outras f v
  ausente : p.posicao=none → (d'.vagasDe (some f)).map (fun w => (w.id,w.posicao))=
    (d.vagasDe (some f)).map (fun w => (w.id,w.posicao))

namespace VagasController

/-- A saved update without a position leaves the vaga without one, so what the form says happens
only if nothing is saved and, for an empty position, the vaga is the last already. -/
theorem update_fimDaFila {s : World} {v : Vaga} {f : Nat} (hv : v ∈ s.db.vagas.rows)
    (hvf : v.filaId=some f) (hc : s.db.Completa (some f)) (u : Sessao) {p : VagaParams}
    (hp : p.posicao.join=none) :
    s.db.FimDaFila ((update u v.id p).exec s).state.db f v.id p ↔
      ¬Aceita s.db u v p ∧ (p.posicao=some none → v.posicao=some (s.db.contaVagas f : Int)) := by
  have hfind : s.db.vagas.find v.id=some v := Table.find_of_mem hv
  rw [db_update u p hfind]
  change s.db.FimDaFila (if Aceita s.db u v p then s.db.salva v p else s.db) f v.id p ↔ _
  split_ifs with ha
  · refine iff_of_false ?_ (fun h => h.1 ha)
    intro h
    have hrow := Db.find_salva p hv hvf
    rw [hp] at hrow
    cases hpp : p.posicao with
    | some o =>
      have ho : o=none := by simpa [hpp] using hp
      have hend := (h.vazia (by rw [hpp,ho])).1
      rw [hrow] at hend
      cases hend
    | none =>
      -- the row of `v` now has no position, and every position was held before
      have hm := Table.mem_of_find hrow
      have hmem : Listed.put none (p.atribui v) ∈ (s.db.salva v p).vagasDe (some f) :=
        List.mem_filter.mpr ⟨hm,Db.naFila_self p hvf⟩
      have hin := List.mem_map_of_mem (f := fun w : Vaga => (w.id,w.posicao)) hmem
      rw [h.ausente hpp] at hin
      obtain ⟨w,hw,he⟩ := List.mem_map.mp hin
      obtain ⟨x,hx,-⟩ := hc.2 w hw
      have hwp := congrArg Prod.snd he
      rw [show w.posicao=some x from hx] at hwp
      cases hwp
  · constructor
    · intro h
      refine ⟨ha,fun hpe => ?_⟩
      have hend := (h.vazia hpe).1
      rw [hfind] at hend
      exact hend
    · intro h
      refine ⟨fun hpe => ⟨?_,rfl⟩,fun _ => rfl⟩
      rw [hfind]
      exact h.2 hpe

/-- A visitor cannot save anything. -/
theorem update_fimDaFila_cenario :
    let s := runAll Rota.prog (Cenario.world Cenario.medida Table.empty)
      [.requisicao (Cenario.inscreve "a"),.requisicao (Cenario.inscreve "b")]
    ∃ v ∈ s.db.vagas.rows,v.posicao=some 1 ∧ s.db.Completa (some 1) ∧
      s.db.FimDaFila ((update ⟨none,none⟩ v.id {}).exec s).state.db 1 v.id {} := by
  intro s
  obtain ⟨v,hv,hvp,hvf,hc⟩ : ∃ v ∈ s.db.vagas.rows,v.posicao=some 1 ∧ v.filaId=some 1 ∧
      s.db.Completa (some 1) := by
    decide +kernel
  refine ⟨v,hv,hvp,hc,(update_fimDaFila hv hvf hc ⟨none,none⟩ rfl).mpr ⟨?_,?_⟩⟩
  · rintro ⟨hu,-⟩
    cases hu
  · intro hpe
    cases hpe

/-- The first of two is sent with an empty position, or with none: both ways it ends up without a
position. -/
theorem update_fimDaFila_falha :
    let s := runAll Rota.prog (Cenario.world Cenario.medida Table.empty)
      [.requisicao (Cenario.inscreve "a"),.requisicao (Cenario.inscreve "b")]
    let vazia := ((update (Cenario.mesa 1) 1 { posicao := some none }).exec s).state.db
    let ausente := ((update (Cenario.mesa 1) 1 {}).exec s).state.db
    s.db.Completa (some 1) ∧ (s.db.vagasDe (some 1)).map (fun v => v.posicao)=[some 1,some 2] ∧
      (vazia.vagasDe (some 1)).map (fun v => v.posicao)=[none,some 2] ∧
      (ausente.vagasDe (some 1)).map (fun v => v.posicao)=[none,some 2] := by
  decide +kernel

end VagasController

end Sisfila
