/-
This file holds the opcodes of the GCN instruction set; operands count from the destinations on.
-/

import ShaderAnalysis.Opcode.Table

namespace ShaderAnalysis.Gcn

/-- Scalar arithmetic. -/
def scalarArithmetic : List Opcode :=
  [⟨"s_mov_b32", [0], [1], .sop1, .next, none⟩,
   ⟨"s_mov_b64", [0], [1], .sop1, .next, none⟩,
   ⟨"s_not_b32", [0], [1], .sop1, .next, none⟩,
   ⟨"s_getpc_b64", [0], [], .sop1, .next, none⟩,
   ⟨"s_setpc_b64", [], [0], .sop1, .next, none⟩,
   ⟨"s_swappc_b64", [0], [1], .sop1, .next, none⟩,
   ⟨"s_and_saveexec_b64", [0], [1], .sop1, .next, none⟩,
   ⟨"s_or_saveexec_b64", [0], [1], .sop1, .next, none⟩,
   ⟨"s_add_u32", [0], [1, 2], .sop2, .next, none⟩,
   ⟨"s_sub_u32", [0], [1, 2], .sop2, .next, none⟩,
   ⟨"s_add_i32", [0], [1, 2], .sop2, .next, none⟩,
   ⟨"s_sub_i32", [0], [1, 2], .sop2, .next, none⟩,
   ⟨"s_mul_i32", [0], [1, 2], .sop2, .next, none⟩,
   ⟨"s_and_b32", [0], [1, 2], .sop2, .next, none⟩,
   ⟨"s_and_b64", [0], [1, 2], .sop2, .next, none⟩,
   ⟨"s_or_b32", [0], [1, 2], .sop2, .next, none⟩,
   ⟨"s_or_b64", [0], [1, 2], .sop2, .next, none⟩,
   ⟨"s_xor_b64", [0], [1, 2], .sop2, .next, none⟩,
   ⟨"s_andn2_b64", [0], [1, 2], .sop2, .next, none⟩,
   ⟨"s_lshl_b32", [0], [1, 2], .sop2, .next, none⟩,
   ⟨"s_lshr_b32", [0], [1, 2], .sop2, .next, none⟩,
   ⟨"s_bfe_u32", [0], [1, 2], .sop2, .next, none⟩,
   ⟨"s_cselect_b32", [0], [1, 2], .sop2, .next, none⟩,
   ⟨"s_cselect_b64", [0], [1, 2], .sop2, .next, none⟩,
   ⟨"s_movk_i32", [0], [1], .sopk, .next, none⟩,
   ⟨"s_cmpk_eq_i32", [], [0, 1], .sopk, .next, none⟩,
   ⟨"s_cmp_eq_u32", [], [0, 1], .sopc, .next, none⟩,
   ⟨"s_cmp_lg_u32", [], [0, 1], .sopc, .next, none⟩,
   ⟨"s_cmp_lt_u32", [], [0, 1], .sopc, .next, none⟩,
   ⟨"s_cmp_gt_i32", [], [0, 1], .sopc, .next, none⟩]

/-- Program control. -/
def programControl : List Opcode :=
  [⟨"s_nop", [], [], .sopp, .next, none⟩,
   ⟨"s_endpgm", [], [], .sopp, .next, none⟩,
   ⟨"s_barrier", [], [], .sopp, .next, none⟩,
   ⟨"s_waitcnt", [], [], .sopp, .next, none⟩,
   ⟨"s_sleep", [], [], .sopp, .next, none⟩,
   ⟨"s_sendmsg", [], [], .sopp, .next, none⟩,
   ⟨"s_branch", [], [], .sopp, .jump, none⟩,
   ⟨"s_cbranch_scc0", [], [], .sopp, .branch, none⟩,
   ⟨"s_cbranch_scc1", [], [], .sopp, .branch, none⟩,
   ⟨"s_cbranch_vccz", [], [], .sopp, .branch, none⟩,
   ⟨"s_cbranch_vccnz", [], [], .sopp, .branch, none⟩,
   ⟨"s_cbranch_execz", [], [], .sopp, .branch, none⟩,
   ⟨"s_cbranch_execnz", [], [], .sopp, .branch, none⟩]

/-- Scalar memory. -/
def scalarMemory : List Opcode :=
  [⟨"s_load_dword", [0], [1, 2], .smem, .next, none⟩,
   ⟨"s_load_dwordx2", [0], [1, 2], .smem, .next, none⟩,
   ⟨"s_load_dwordx4", [0], [1, 2], .smem, .next, none⟩,
   ⟨"s_load_dwordx8", [0], [1, 2], .smem, .next, none⟩,
   ⟨"s_buffer_load_dword", [0], [1, 2], .smem, .next, none⟩,
   ⟨"s_buffer_load_dwordx2", [0], [1, 2], .smem, .next, none⟩,
   ⟨"s_buffer_load_dwordx4", [0], [1, 2], .smem, .next, none⟩]

/-- Vector arithmetic with one source. -/
def vectorOneSource : List Opcode :=
  [⟨"v_mov_b32", [0], [1], .vop1, .next, some 4⟩,
   ⟨"v_not_b32", [0], [1], .vop1, .next, some 4⟩,
   ⟨"v_cvt_f32_i32", [0], [1], .vop1, .next, some 4⟩,
   ⟨"v_cvt_f32_u32", [0], [1], .vop1, .next, some 4⟩,
   ⟨"v_cvt_u32_f32", [0], [1], .vop1, .next, some 4⟩,
   ⟨"v_cvt_i32_f32", [0], [1], .vop1, .next, some 4⟩,
   ⟨"v_cvt_f16_f32", [0], [1], .vop1, .next, some 4⟩,
   ⟨"v_cvt_f32_f16", [0], [1], .vop1, .next, some 4⟩,
   ⟨"v_fract_f32", [0], [1], .vop1, .next, some 4⟩,
   ⟨"v_floor_f32", [0], [1], .vop1, .next, some 4⟩,
   ⟨"v_rcp_f32", [0], [1], .vop1, .next, some 16⟩,
   ⟨"v_rsq_f32", [0], [1], .vop1, .next, some 16⟩,
   ⟨"v_sqrt_f32", [0], [1], .vop1, .next, some 16⟩,
   ⟨"v_exp_f32", [0], [1], .vop1, .next, some 16⟩,
   ⟨"v_log_f32", [0], [1], .vop1, .next, some 16⟩,
   ⟨"v_sin_f32", [0], [1], .vop1, .next, some 16⟩,
   ⟨"v_cos_f32", [0], [1], .vop1, .next, some 16⟩,
   ⟨"v_readfirstlane_b32", [0], [1], .vop1, .next, some 4⟩]

/-- Vector arithmetic with two sources, encoded as VOP2 or, with modifiers, as VOP3. -/
def vectorTwoSources : List Opcode :=
  [⟨"v_add_f32", [0], [1, 2], .vop2, .next, some 4⟩,
   ⟨"v_sub_f32", [0], [1, 2], .vop2, .next, some 4⟩,
   ⟨"v_subrev_f32", [0], [1, 2], .vop2, .next, some 4⟩,
   ⟨"v_mul_f32", [0], [1, 2], .vop2, .next, some 4⟩,
   ⟨"v_min_f32", [0], [1, 2], .vop2, .next, some 4⟩,
   ⟨"v_max_f32", [0], [1, 2], .vop2, .next, some 4⟩,
   ⟨"v_add_f16", [0], [1, 2], .vop2, .next, some 4⟩,
   ⟨"v_mul_f16", [0], [1, 2], .vop2, .next, some 4⟩,
   ⟨"v_and_b32", [0], [1, 2], .vop2, .next, some 4⟩,
   ⟨"v_or_b32", [0], [1, 2], .vop2, .next, some 4⟩,
   ⟨"v_xor_b32", [0], [1, 2], .vop2, .next, some 4⟩,
   ⟨"v_lshlrev_b32", [0], [1, 2], .vop2, .next, some 4⟩,
   ⟨"v_lshrrev_b32", [0], [1, 2], .vop2, .next, some 4⟩,
   ⟨"v_ashrrev_i32", [0], [1, 2], .vop2, .next, some 4⟩,
   ⟨"v_cvt_pkrtz_f16_f32", [0], [1, 2], .vop2, .next, some 4⟩,
   ⟨"v_add_i32", [0, 1], [2, 3], .vop2, .next, some 4⟩,
   ⟨"v_add_u32", [0, 1], [2, 3], .vop2, .next, some 4⟩,
   ⟨"v_sub_u32", [0, 1], [2, 3], .vop2, .next, some 4⟩,
   ⟨"v_add_co_u32", [0, 1], [2, 3], .vop2, .next, some 4⟩,
   ⟨"v_addc_u32", [0, 1], [2, 3, 4], .vop2, .next, some 4⟩,
   ⟨"v_cndmask_b32", [0], [1, 2, 3], .vop2, .next, some 4⟩,
   ⟨"v_mac_f32", [0], [0, 1, 2], .vop2, .next, some 4⟩]

/-- Vector arithmetic with three sources. -/
def vectorThreeSources : List Opcode :=
  [⟨"v_mad_f32", [0], [1, 2, 3], .vop3, .next, some 4⟩,
   ⟨"v_fma_f32", [0], [1, 2, 3], .vop3, .next, some 4⟩,
   ⟨"v_med3_f32", [0], [1, 2, 3], .vop3, .next, some 4⟩,
   ⟨"v_min3_f32", [0], [1, 2, 3], .vop3, .next, some 4⟩,
   ⟨"v_max3_f32", [0], [1, 2, 3], .vop3, .next, some 4⟩,
   ⟨"v_bfe_u32", [0], [1, 2, 3], .vop3, .next, some 4⟩,
   ⟨"v_mul_lo_u32", [0], [1, 2], .vop3, .next, some 16⟩,
   ⟨"v_mul_hi_u32", [0], [1, 2], .vop3, .next, some 16⟩]

/-- Vector comparison into a condition mask. -/
def vectorCompare : List Opcode :=
  [⟨"v_cmp_eq_f32", [0], [1, 2], .vopc, .next, some 4⟩,
   ⟨"v_cmp_lt_f32", [0], [1, 2], .vopc, .next, some 4⟩,
   ⟨"v_cmp_gt_f32", [0], [1, 2], .vopc, .next, some 4⟩,
   ⟨"v_cmp_eq_u32", [0], [1, 2], .vopc, .next, some 4⟩,
   ⟨"v_cmp_ne_u32", [0], [1, 2], .vopc, .next, some 4⟩,
   ⟨"v_cmp_lt_u32", [0], [1, 2], .vopc, .next, some 4⟩,
   ⟨"v_cmp_gt_i32", [0], [1, 2], .vopc, .next, some 4⟩,
   ⟨"v_cmpx_gt_f32", [0], [1, 2], .vopc, .next, some 4⟩]

/-- Parameter interpolation. -/
def interpolation : List Opcode :=
  [⟨"v_interp_p1_f32", [0], [1, 2], .vintrp, .next, none⟩,
   ⟨"v_interp_p2_f32", [0], [0, 1, 2], .vintrp, .next, none⟩,
   ⟨"v_interp_mov_f32", [0], [1, 2], .vintrp, .next, none⟩]

/-- Local data share. -/
def localDataShare : List Opcode :=
  [⟨"ds_read_b32", [0], [1], .ds, .next, none⟩,
   ⟨"ds_read_b64", [0], [1], .ds, .next, none⟩,
   ⟨"ds_read2_b32", [0], [1], .ds, .next, none⟩,
   ⟨"ds_write_b32", [], [0, 1], .ds, .next, none⟩,
   ⟨"ds_write_b64", [], [0, 1], .ds, .next, none⟩,
   ⟨"ds_write2_b32", [], [0, 1, 2], .ds, .next, none⟩,
   ⟨"ds_add_u32", [], [0, 1], .ds, .next, none⟩]

/-- Buffer memory. -/
def bufferMemory : List Opcode :=
  [⟨"buffer_load_dword", [0], [1, 2, 3], .mubuf, .next, none⟩,
   ⟨"buffer_load_dwordx2", [0], [1, 2, 3], .mubuf, .next, none⟩,
   ⟨"buffer_load_dwordx4", [0], [1, 2, 3], .mubuf, .next, none⟩,
   ⟨"buffer_store_dword", [], [0, 1, 2, 3], .mubuf, .next, none⟩,
   ⟨"buffer_store_dwordx2", [], [0, 1, 2, 3], .mubuf, .next, none⟩,
   ⟨"buffer_store_dwordx4", [], [0, 1, 2, 3], .mubuf, .next, none⟩,
   ⟨"buffer_atomic_add", [0], [0, 1, 2, 3], .mubuf, .next, none⟩,
   ⟨"tbuffer_load_format_x", [0], [1, 2, 3], .mtbuf, .next, none⟩,
   ⟨"tbuffer_load_format_xyzw", [0], [1, 2, 3], .mtbuf, .next, none⟩,
   ⟨"tbuffer_store_format_x", [], [0, 1, 2, 3], .mtbuf, .next, none⟩]

/-- Image memory. -/
def imageMemory : List Opcode :=
  [⟨"image_sample", [0], [1, 2, 3], .mimg, .next, none⟩,
   ⟨"image_sample_l", [0], [1, 2, 3], .mimg, .next, none⟩,
   ⟨"image_sample_lz", [0], [1, 2, 3], .mimg, .next, none⟩,
   ⟨"image_gather4", [0], [1, 2, 3], .mimg, .next, none⟩,
   ⟨"image_load", [0], [1, 2], .mimg, .next, none⟩,
   ⟨"image_store", [], [0, 1, 2], .mimg, .next, none⟩]

/-- Export. -/
def exports : List Opcode :=
  [⟨"exp", [], [1, 2, 3, 4], .exp, .next, none⟩]

/-- Flat and global memory. -/
def flatMemory : List Opcode :=
  [⟨"flat_load_dword", [0], [1], .flat, .next, none⟩,
   ⟨"flat_load_dwordx2", [0], [1], .flat, .next, none⟩,
   ⟨"flat_load_dwordx4", [0], [1], .flat, .next, none⟩,
   ⟨"flat_store_dword", [], [0, 1], .flat, .next, none⟩,
   ⟨"global_load_dword", [0], [1, 2], .flat, .next, none⟩,
   ⟨"global_store_dword", [], [0, 1, 2], .flat, .next, none⟩]

/-- The table of the GCN instruction set. -/
def opcodes : OpcodeTable where
  entries :=
    scalarArithmetic ++ programControl ++ scalarMemory ++ vectorOneSource ++
      vectorTwoSources ++ vectorThreeSources ++ vectorCompare ++ interpolation ++
      localDataShare ++ bufferMemory ++ imageMemory ++ exports ++
      flatMemory

end ShaderAnalysis.Gcn
