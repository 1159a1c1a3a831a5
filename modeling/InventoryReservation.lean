import InventoryReservation.RowTxn.Table
import InventoryReservation.RowTxn.LockedLoads
import InventoryReservation.RowTxn.Solo
import InventoryReservation.ReservationService
import InventoryReservation.InventoryService
import InventoryReservation.RowTxn.Guarantee
import InventoryReservation.ClaimBook
import InventoryReservation.Groups
import InventoryReservation.Finality
import InventoryReservation.Conservation
import InventoryReservation.Availability
import InventoryReservation.FailOpen
import InventoryReservation.ItemOrder
import InventoryReservation.LeftHeld
import InventoryReservation.Exactness
import InventoryReservation.Confirmation
import InventoryReservation.HoldUse
import InventoryReservation.HoldTrail
import InventoryReservation.GiveBack
import InventoryReservation.Release
import InventoryReservation.Sweeps
import InventoryReservation.Sync
import InventoryReservation.SyncFailures
import InventoryReservation.SyncPromises
import InventoryReservation.StockBook
import InventoryReservation.Worker
import InventoryReservation.Replicas
import InventoryReservation.SettledOnce
import InventoryReservation.Deadlock
import InventoryReservation.Pagination
import InventoryReservation.RateLimit
import InventoryReservation.Serializable
import InventoryReservation.ReadBack
import InventoryReservation.Validation
import InventoryReservation.TokenTrail
import InventoryReservation.UserSchemas
import InventoryReservation.ValidAccounts
